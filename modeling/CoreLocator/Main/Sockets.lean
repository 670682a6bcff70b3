import CoreLocator.Network.Dial
import CoreLocator.Network.SystemFault
import CoreLocator.Settings
import Std.Async

/-! Connections over TCP, each step of them within its time. With the program itself this is the
outer layer, which acts on the machine; nothing is proved about it, and nothing else imports it. -/
namespace CoreLocator.Program.Sockets

open Network Std.Async Std.Net

/-- Some of the numbers come with their sign turned. -/
def numberOf (code : UInt32) : Nat := min code.toNat (UInt32.size - code.toNat)

def faultOf : IO.Error → Fault
  | .noSuchThing _ code details => .ofNumber (numberOf code) details
  | .resourceVanished code details => .ofNumber (numberOf code) details
  | .invalidArgument _ code details => .ofNumber (numberOf code) details
  | .resourceExhausted _ code details => .ofNumber (numberOf code) details
  | .timeExpired code details => .ofNumber (numberOf code) details
  | .otherError code details => .ofNumber (numberOf code) details
  | e => .reported .other (toString e)

/-- Gives up on `step` after a time. -/
def within {α : Type} (milliseconds : UInt64) (late : Fault) (step : Async α) :
    IO (Except Fault α) := do
  let timed : Async (Option α) :=
    EAsync.race (some <$> step) (do
      sleep (.ofNat milliseconds.toNat)
      return none)
  match ← timed.block.toBaseIO with
  | .ok (some a) => return .ok a
  | .ok none => return .error late
  | .error e => return .error (faultOf e)

def addressOf : IPAddr → Address
  | .v4 address => .version4 address.octets
  | .v6 address => .version6 address.segments

/-- A host's addresses, each of them once; a host that is itself an address has no others. -/
def addresses (host : String) : IO (Except Fault (List Address)) := do
  match Address.ofBytes? (.ofString host) with
  | some address => return .ok [address]
  | none =>
    match ← (DNS.getAddrInfo host "").block.toBaseIO with
    | .error e => return .error (.lookupFailed (toString e))
    | .ok found =>
      return .ok (found.toList.map addressOf).eraseDups

def socketAddress (port : UInt16) : Address → SocketAddress
  | .version4 bytes => .v4 { addr := ⟨bytes⟩, port }
  | .version6 groups => .v6 { addr := ⟨groups⟩, port }

def reach (timeouts : Timeouts) (port : UInt16) (address : Address) :
    IO (Except Fault TCP.Socket.Client) := do
  let client ← TCP.Socket.Client.mk
  let late : Fault := .reported .timedOut "connection timed out"
  let answer ← within timeouts.connect late (client.connect (socketAddress port address))
  return answer.map fun () => client

def connect {m : Type → Type} [Monad m] [MonadLiftT IO m] [Log m] (timeouts : Timeouts)
    (endpoint : Endpoint) : m (Except Fault TCP.Socket.Client) := do
  if endpoint.host.toList.contains '\x00' then
    return .error (.reported .invalidInput "file name contained an unexpected NUL byte")
  match ← addresses endpoint.host with
  | .error fault => return .error fault
  | .ok found => dial endpoint (fun address => reach timeouts endpoint.port address) found

/-- A step that takes too long is one that would have to wait. -/
def late : Fault := .ofNumber 11

def send (timeouts : Timeouts) (client : TCP.Socket.Client) (data : Bytes) :
    IO (Except Fault (Accepted data)) := do
  let answer ← within timeouts.io late (client.send ⟨data.toArray⟩)
  return answer.map fun _ => .all data

def receive (timeouts : Timeouts) (client : TCP.Socket.Client) (room : Nat) :
    IO (Except Fault (Received room)) := do
  let answer ← within timeouts.io late (client.recv? room.toUInt64)
  return answer.map fun data =>
    ⟨((data.map fun d => d.data.toList).getD []).take room, List.length_take_le _ _⟩

/-- A connection that is down already is left alone. -/
def disconnect (client : TCP.Socket.Client) : IO Unit := do
  let _ ← client.shutdown.block.toBaseIO

end CoreLocator.Program.Sockets
