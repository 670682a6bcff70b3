import CoreLocator.Network

/-! A link owns one connection until it is closed, and closing it disconnects that connection
once. -/
namespace CoreLocator

structure Link (κ : Type) where
  connection : Option κ

namespace Link

variable {m : Type → Type} {κ : Type} [Monad m] [Network m κ]

def ofConnection (c : κ) : Link κ := ⟨some c⟩

def isOpen (link : Link κ) : Bool := link.connection.isSome

/-- Offers what is not yet accepted until nothing is left. A connection that accepts nothing is
given up, for it could do so for ever. -/
def sendOver (c : κ) : Bytes → m (Except Network.Fault Unit)
  | [] => pure (.ok ())
  | b :: data => do
    match ← Network.send c (b :: data) with
    | .error fault => pure (.error fault)
    | .ok ⟨0, _⟩ => pure (.error .nothingAccepted)
    | .ok ⟨n + 1, _⟩ => sendOver c (data.drop n)
termination_by data => data.length
decreasing_by
  simp only [List.length_drop, List.length_cons]
  omega

def sendAll (link : Link κ) (data : Bytes) : m (Except Network.Fault Unit) :=
  match link.connection with
  | none => pure (.error .linkClosed)
  | some c => sendOver c data

def receive (link : Link κ) (room : Nat) : m (Except Network.Fault (Network.Received room)) :=
  match link.connection with
  | none => pure (.error .linkClosed)
  | some c => Network.receive c room

def close (link : Link κ) : m (Link κ) :=
  match link.connection with
  | none => pure link
  | some c => do
    Network.disconnect c
    pure ⟨none⟩

end Link
end CoreLocator
