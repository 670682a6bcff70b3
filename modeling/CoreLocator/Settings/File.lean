import CoreLocator.Files
import CoreLocator.Json.Record
import CoreLocator.Json.Value
import CoreLocator.Settings

/-! Settings as a JSON record in a file. Every member but the service and the thing may be left
out. -/
namespace CoreLocator.Settings

open Json in
/-- The members, in the order in which they are written and in which a list gives them. -/
def fields : List (Json.Field Settings) :=
  [.of "endpoint" true (.text "a string") fun v s => { s with endpoint := v },
   .of "port" false (.natural UInt16.size "u16") fun n s => { s with port := n.toUInt16 },
   .of "thing_name" true (.text "a string") fun v s => { s with thingName := v },
   .of "buffer_size" false (.natural UInt64.size "usize") fun n s =>
      { s with bufferSize := n.toUInt64 },
   .of "interface" false (.optional (.natural UInt64.size "usize")) fun n s =>
      { s with interface := n.map Nat.toUInt64 },
   .of "connect_timeout_ms" false (.natural UInt64.size "u64") fun n s =>
      { s with timeouts := { s.timeouts with connect := n.toUInt64 } },
   .of "io_timeout_ms" false (.natural UInt64.size "u64") fun n s =>
      { s with timeouts := { s.timeouts with io := n.toUInt64 } },
   .of "root_ca_path" false (.optional (.text "path string")) fun v s => { s with rootCaPath := v },
   .of "client_cert_path" false (.optional (.text "path string")) fun v s =>
      { s with clientCertPath := v },
   .of "client_key_path" false (.optional (.text "path string")) fun v s =>
      { s with clientKeyPath := v },
   .of "attempts" false (.natural UInt32.size "u32") fun n s => { s with attempts := n.toUInt32 },
   .of "retry_wait_ms" false (.natural UInt64.size "u64") fun n s =>
      { s with retryWait := n.toUInt64 }]

/-- The settings that a file's content stands for. -/
def parse (content : Bytes) : Except SettingsError Settings :=
  match Utf8.decode content with
  | .error _ => .error (.unreadable "stream did not contain valid UTF-8")
  | .ok _ =>
    (Json.Record.decode "DiscoveryConfig" fields { endpoint := "", thingName := "" } content).mapError
      .unparsable

def load {m : Type → Type} [Monad m] [Files m] (path : String) :
    m (Except SettingsError Settings) := do
  match ← Files.read path with
  | .error fault => pure (.error (.unreadable fault.message))
  | .ok content => pure (parse content)

open Json.Value in
def toJson (s : Settings) : Json.Value :=
  object
    [("endpoint", text s.endpoint), ("port", natural s.port.toNat),
     ("thing_name", text s.thingName), ("buffer_size", natural s.bufferSize.toNat),
     ("interface", ofOption (fun n => natural n.toNat) s.interface),
     ("connect_timeout_ms", natural s.timeouts.connect.toNat),
     ("io_timeout_ms", natural s.timeouts.io.toNat),
     ("root_ca_path", ofOption text s.rootCaPath),
     ("client_cert_path", ofOption text s.clientCertPath),
     ("client_key_path", ofOption text s.clientKeyPath),
     ("attempts", natural s.attempts.toNat), ("retry_wait_ms", natural s.retryWait.toNat)]

/-- The content of a settings file. -/
def render (s : Settings) : String := s.toJson.pretty

end CoreLocator.Settings
