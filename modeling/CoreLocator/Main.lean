import CoreLocator.CommandLine.Reading
import CoreLocator.Main.Sockets
import CoreLocator.Retry
import CoreLocator.Tls

/-! The program: settings from the command line and a file, a discovery over the network, and a
report. What it is told goes to standard output, all else to standard error. This is the outer
layer: here alone, and in the sockets below it, the machine is acted on. -/
namespace CoreLocator.Program

/-- What a plain connection is made with. -/
structure Plain where
  timeouts : Timeouts
  /-- The name of the least of the levels of log records that are shown. -/
  logLevel : String

/-- What the program runs with once its settings are known. -/
structure Context extends Plain where
  /-- Without one, connections are plain. -/
  tls : Option Tls.Client

abbrev PlainRun := ReaderT Plain IO

abbrev Run := ReaderT Context IO

def shows (logLevel : String) (level : Log.Level) : Bool :=
  match logLevel, level with
  | "error", _ => false
  | "warn", level => level == .warn
  | "trace", _ => true
  | "debug", _ => true
  | _, level => level != .debug

def levelName : Log.Level → String
  | .debug => "DEBUG"
  | .info => " INFO"
  | .warn => " WARN"

instance : Log PlainRun where
  record r := do
    if shows (← read).logLevel r.level then IO.eprintln s!"{levelName r.level} {r.text}"

instance : Log Run where
  record r := fun context => (Log.record r : PlainRun Unit).run context.toPlain

instance : Pause Run where
  pause milliseconds := IO.sleep (min milliseconds.toNat (UInt32.size - 1)).toUInt32

instance : Network PlainRun Std.Async.TCP.Socket.Client where
  connect endpoint := do Sockets.connect (← read).timeouts endpoint
  send c data := do Sockets.send (← read).timeouts c data
  receive c room := do Sockets.receive (← read).timeouts c room
  disconnect c := Sockets.disconnect c

def noHandshake : Network.Fault := .reported .other "no TLS handshake can be made"

/-- Without a TLS client the connection is plain; with one, the handshake comes next. -/
def connect (tls : Option Tls.Client) (endpoint : Endpoint) :
    PlainRun (Except Network.Fault Std.Async.TCP.Socket.Client) := do
  match tls with
  | none => Network.connect endpoint
  | some client =>
    match ← client.connect endpoint with
    | .error fault => return .error fault
    | .ok (connection, _) =>
      Network.disconnect connection
      return .error noHandshake

instance : Network Run Std.Async.TCP.Socket.Client where
  connect endpoint := fun context => (connect context.tls endpoint).run context.toPlain
  send c data := do Sockets.send (← read).timeouts c data
  receive c room := do Sockets.receive (← read).timeouts c room
  disconnect c := Sockets.disconnect c

def fileFault : IO.Error → Files.Fault
  | .noFileOrDirectory _ _ _ => .notFound
  | .inappropriateType _ 21 _ => .isDirectory
  | .inappropriateType _ 20 _ => .notDirectory
  | .invalidArgument _ 36 _ => .nameTooLong
  | e => .reported (toString e)

instance : Files IO where
  read path := do
    if path.toList.contains '\x00' then return .error .nulInName
    match ← (IO.FS.readBinFile path).toBaseIO with
    | .ok content => return .ok content.data.toList
    | .error e => return .error (fileFault e)

/-- A program that goes on until it fails, with the causes of the failure. -/
abbrev Attempt := ExceptT (List String) IO

def orFail {ε α : Type} (messages : ε → List String) (step : Except ε α) : Attempt α :=
  match step with
  | .ok a => pure a
  | .error e => throw (messages e)

def context (a : CommandLine.Arguments) (s : Settings) : Attempt Context := do
  let logLevel := a.logLevelName
  if a.plain then return { timeouts := s.timeouts, tls := none, logLevel }
  let credentials ← orFail
    (fun fault => ["loading TLS credentials", (SettingsError.unreadable fault.message).message])
    (← (Credentials.ofSettings s : IO _))
  let client ← orFail (fun fault => ["building TLS client", fault.message])
    (Tls.Client.ofCredentials credentials s.timeouts)
  return { timeouts := s.timeouts, tls := some client, logLevel }

def keepCertificate (path : String) (core : CoreAddress) : Attempt Unit := do
  match Report.certificateFile? core with
  | none => throw ["group CA is not valid UTF-8"]
  | some content =>
    match ← (IO.FS.writeFile path content).toBaseIO with
    | .ok () => pure ()
    | .error e => throw [s!"writing {path}", (fileFault e).message]

def run (a : CommandLine.Arguments) : Attempt Unit := do
  let settings ← orFail CommandLine.Unconfigured.messages (← (a.settings : IO _))
  orFail (fun defect => ["invalid configuration", (SettingsError.invalid defect).message])
    settings.check
  let context ← context a settings
  let found : Run (Except Retry.Failure CoreAddress) := Retry.discover settings
  let core ← orFail Retry.Failure.messages (← found.run context)
  IO.print (Report.render a.outputFormat core)
  match a.caOut with
  | none => pure ()
  | some path => keepCertificate path core

def usage : String :=
  "Usage: core-locator [options]\n\nOptions:\n"
    ++ String.join (CommandLine.Parameter.all.map fun p =>
      let short := match p.short with
        | none => "    "
        | some letter => s!"-{letter}, "
      s!"  {short}--{p.long}\n")

end CoreLocator.Program

open CoreLocator in
def main (arguments : List String) : IO UInt32 := do
  match CommandLine.parse arguments with
  | .error .help =>
    IO.print Program.usage
    return 0
  | .error .version =>
    IO.println "core-locator 0.3.1"
    return 0
  | .error _ =>
    IO.eprint Program.usage
    return 2
  | .ok a =>
    match ← (Program.run a).run with
    | .ok () => return 0
    | .error messages =>
      IO.eprintln s!"Error: {Report.failureText messages}"
      return 1
