import CoreLocator.Report
import CoreLocator.Settings.File

/-! What a command line can say, and the settings that follow from it: those of a file, if it names
one, with its own in their place. -/
namespace CoreLocator

namespace CommandLine

/-- Nothing is there for an option that was not given. -/
structure Arguments where
  config : Option String := none
  endpoint : Option String := none
  port : Option UInt16 := none
  thingName : Option String := none
  interface : Option UInt64 := none
  bufferSize : Option UInt64 := none
  rootCa : Option String := none
  cert : Option String := none
  key : Option String := none
  attempts : Option UInt32 := none
  retryWait : Option UInt64 := none
  /-- Without TLS. -/
  plain : Bool := false
  caOut : Option String := none
  format : Option Report.Format := none
  logLevel : Option String := none
  deriving DecidableEq, Repr

/-- Why there are no settings. -/
inductive Unconfigured
  | unreadable (path : String) (error : SettingsError)
  /-- Neither a file nor a service and a thing. -/
  | incomplete
  deriving DecidableEq, Repr

def Unconfigured.messages : Unconfigured → List String
  | unreadable path error => ["reading " ++ Text.quoted path, error.message]
  | incomplete => ["--endpoint and --thing-name are required without --config"]

namespace Arguments

def outputFormat (a : Arguments) : Report.Format := a.format.getD .pretty

def logLevelName (a : Arguments) : String := a.logLevel.getD "warn"

/-- The settings with those that the command line gives in their place. -/
def overlay (a : Arguments) (s : Settings) : Settings :=
  { s with
    endpoint := a.endpoint.getD s.endpoint
    port := a.port.getD s.port
    thingName := a.thingName.getD s.thingName
    bufferSize := a.bufferSize.getD s.bufferSize
    interface := a.interface.or s.interface
    rootCaPath := a.rootCa.or s.rootCaPath
    clientCertPath := a.cert.or s.clientCertPath
    clientKeyPath := a.key.or s.clientKeyPath
    attempts := a.attempts.getD s.attempts
    retryWait := a.retryWait.getD s.retryWait }

/-- The settings before the command line's own are put in place. -/
def base {m : Type → Type} [Monad m] [Files m] (a : Arguments) :
    m (Except Unconfigured Settings) := do
  match a.config with
  | some path => return (← Settings.load path).mapError (.unreadable path)
  | none =>
    match a.endpoint, a.thingName with
    | some endpoint, some thingName => return .ok { endpoint, thingName }
    | _, _ => return .error .incomplete

def settings {m : Type → Type} [Monad m] [Files m] (a : Arguments) :
    m (Except Unconfigured Settings) := do
  return (← a.base).map a.overlay

end Arguments
end CommandLine
end CoreLocator
