import CoreLocator.Bytes

/-! What a discovery asks of the network: connect, send, receive, disconnect. The bounds on the
counts that come back are part of the answers' types. -/
namespace CoreLocator

structure Endpoint where
  host : String
  port : UInt16
  /-- The one authority to trust on this connection, as PEM; otherwise the client's own. -/
  trust : Option Bytes := none
  deriving DecidableEq, Repr

def Endpoint.display (e : Endpoint) : String := s!"{e.host}:{e.port}"

namespace Network

/-- The classes of transport faults. -/
inductive Kind
  | connectionRefused
  | connectionReset
  | notConnected
  | networkUnreachable
  | timedOut
  | brokenPipe
  | writeZero
  | wouldBlock
  | invalidInput
  | invalidData
  | notFound
  | addressNotAvailable
  /-- A fault of the system's that falls into none of the classes. -/
  | uncategorized
  | other
  deriving DecidableEq, Repr

inductive Fault
  | noRoute (host : String) (port : UInt16)
  | reset
  | disconnected
  | linkClosed
  | nothingAccepted
  /-- A fault in the words of whoever reports it. -/
  | reported (kind : Kind) (text : String)
  deriving DecidableEq, Repr

namespace Fault

def kind : Fault → Kind
  | noRoute _ _ => .connectionRefused
  | reset => .connectionReset
  | disconnected => .notConnected
  | linkClosed => .notConnected
  | nothingAccepted => .writeZero
  | reported kind _ => kind

def message : Fault → String
  | noRoute host port => s!"no route to {host}:{port}"
  | reset => "connection reset"
  | disconnected => "not connected"
  | linkClosed => "link already closed"
  | nothingAccepted => "connection accepted no bytes"
  | reported _ text => text

end Fault

/-- How many of the bytes in `data` were accepted. -/
abbrev Accepted (data : Bytes) := { n : Nat // n ≤ data.length }

def Accepted.all (data : Bytes) : Accepted data := ⟨data.length, Nat.le_refl _⟩

/-- Bytes that fit in `room`; none at all mean that the peer has finished. -/
abbrev Received (room : Nat) := { data : Bytes // data.length ≤ room }

end Network

/-- Connections are named by values of `κ`. -/
class Network (m : Type → Type) (κ : outParam Type) where
  connect : Endpoint → m (Except Network.Fault κ)
  send : κ → (data : Bytes) → m (Except Network.Fault (Network.Accepted data))
  receive : κ → (room : Nat) → m (Except Network.Fault (Network.Received room))
  /-- May be called again on a connection that is already down. -/
  disconnect : κ → m Unit

end CoreLocator
