import CoreLocator.Discovery
import CoreLocator.Json.Fault

/-! What a client is set up with: the service, the thing, the buffer, the files of its credentials,
and how often to try. -/
namespace CoreLocator

/-- Bounds in milliseconds. -/
structure Timeouts where
  connect : UInt64 := 5000
  io : UInt64 := 2000
  deriving DecidableEq, Repr

structure Settings where
  endpoint : String
  port : UInt16 := 8443
  thingName : String
  bufferSize : UInt64 := 4096
  /-- The connectivity entry to use; without it, entries are probed. -/
  interface : Option UInt64 := none
  timeouts : Timeouts := {}
  rootCaPath : Option String := none
  clientCertPath : Option String := none
  clientKeyPath : Option String := none
  attempts : UInt32 := 3
  /-- The pause between attempts in milliseconds. -/
  retryWait : UInt64 := 2000
  deriving DecidableEq, Repr

/-- What is wrong with settings. -/
inductive SettingsDefect
  | emptyEndpoint
  | zeroPort
  | thingName (defect : RequestDefect)
  | bufferTooSmall (size required : Nat)
  | zeroTimeout
  | zeroAttempts
  | halfIdentity
  deriving DecidableEq, Repr

def SettingsDefect.message : SettingsDefect → String
  | emptyEndpoint => "endpoint cannot be empty"
  | zeroPort => "port cannot be 0"
  | thingName defect => s!"thing_name: {(Failure.invalidRequest defect).message}"
  | bufferTooSmall size required =>
    s!"buffer_size {size} cannot hold the {required} byte request"
  | zeroTimeout => "timeouts cannot be 0"
  | zeroAttempts => "attempts cannot be 0"
  | halfIdentity => "client_cert_path and client_key_path must be set together"

inductive SettingsError
  /-- A file could not be read, in the system's words. -/
  | unreadable (text : String)
  | unparsable (diagnosis : Json.Diagnosis)
  | invalid (defect : SettingsDefect)
  deriving DecidableEq, Repr

def SettingsError.message : SettingsError → String
  | unreadable text => s!"I/O error: {text}"
  | unparsable diagnosis => s!"Parse error: {diagnosis.message}"
  | invalid defect => s!"Invalid value: {defect.message}"

namespace Settings

def selection (s : Settings) : Selection :=
  match s.interface with
  | none => .automatic
  | some index => .manual index.toNat

def request (s : Settings) : DiscoveryRequest := ⟨s.endpoint, s.port, s.thingName, s.selection⟩

/-- The first thing that is wrong, in the order of the defects. -/
def check (s : Settings) : Except SettingsDefect Unit := do
  if s.endpoint.isEmpty then throw .emptyEndpoint
  if s.port = 0 then throw .zeroPort
  (Request.checkName s.thingName).mapError .thingName
  if s.bufferSize.toNat < Request.length s.thingName then
    throw (.bufferTooSmall s.bufferSize.toNat (Request.length s.thingName))
  if s.timeouts.connect = 0 ∨ s.timeouts.io = 0 then throw .zeroTimeout
  if s.attempts = 0 then throw .zeroAttempts
  if s.clientCertPath.isSome ≠ s.clientKeyPath.isSome then throw .halfIdentity

end Settings
end CoreLocator
