import CoreLocator.Network

/-! The operating system's faults by their numbers. -/
namespace CoreLocator.Network

/-- The classes and texts of the faults that connections meet. -/
def knownFaults : List (Nat × Kind × String) :=
  [(11, .wouldBlock, "Resource temporarily unavailable"),
   (22, .invalidInput, "Invalid argument"),
   (32, .brokenPipe, "Broken pipe"),
   (99, .addressNotAvailable, "Cannot assign requested address"),
   (101, .networkUnreachable, "Network is unreachable"),
   (104, .connectionReset, "Connection reset by peer"),
   (107, .notConnected, "Transport endpoint is not connected"),
   (110, .timedOut, "Connection timed out"),
   (111, .connectionRefused, "Connection refused")]

/-- A number that is not known has the words of whoever reports it. -/
def Fault.ofNumber (number : Nat) (details : String := "Unknown error") : Fault :=
  match knownFaults.lookup number with
  | some (kind, text) => .reported kind s!"{text} (os error {number})"
  | none => .reported .uncategorized s!"{details} (os error {number})"

/-- A host whose addresses cannot be found out. -/
def Fault.lookupFailed (details : String) : Fault :=
  .reported .uncategorized s!"failed to lookup address information: {details}"

end CoreLocator.Network
