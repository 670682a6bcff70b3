import CoreLocator.Log
import CoreLocator.Network
import CoreLocator.Network.Address

/-! A host may have several addresses, which are tried one after the other. -/
namespace CoreLocator.Network

variable {m : Type → Type} {κ : Type} [Monad m] [Log m]

/-- The first address that can be reached; each one that cannot is told of. -/
def firstReached (port : UInt16) (reach : Address → m (Except Fault κ)) (last : Fault) :
    List Address → m (Except Fault κ)
  | [] => pure (.error last)
  | address :: rest => do
    match ← reach address with
    | .ok connection => pure (.ok connection)
    | .error fault =>
      Log.debug s!"[transport] connect {address.textWithPort port} failed: {fault.message}"
      firstReached port reach fault rest

/-- Where no address can be reached, the fault is the one at the last of them. -/
def dial (endpoint : Endpoint) (reach : Address → m (Except Fault κ)) (addresses : List Address) :
    m (Except Fault κ) :=
  firstReached endpoint.port reach
    (.reported .notFound s!"{endpoint.display} resolved to no address") addresses

end CoreLocator.Network
