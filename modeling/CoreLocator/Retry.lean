import CoreLocator.Pause
import CoreLocator.Settings

/-! Discoveries one after the other, as long as another one may do better and is allowed. -/
namespace CoreLocator

inductive Retry.Failure
  /-- The document needs a larger buffer than the settings allow for. -/
  | documentTooLarge (required bufferSize : Nat)
  | gaveUp (attempts : Nat) (last : CoreLocator.Failure)
  deriving DecidableEq, Repr

/-- The failure of the last attempt, under what it means for all of them. -/
def Retry.Failure.messages : Retry.Failure → List String
  | documentTooLarge required bufferSize =>
    [s!"discovery document needs {required} bytes, buffer_size is {bufferSize}; "
      ++ "increase buffer_size"]
  | gaveUp attempts last => s!"discovery failed after {attempts} attempt(s)" :: last.messages

namespace Retry

variable {m : Type → Type} {κ : Type} [Monad m] [Network m κ] [Log m] [Pause m]

/-- Attempt number `attempt`, with `more` allowed after it. -/
def discoverFrom (s : Settings) (session : Session) (attempt : Nat) :
    (more : Nat) → m (Except Failure CoreAddress)
  | 0 => do
    match ← session.discover s.request with
    | (.ok core, _) => pure (.ok core)
    | (.error failure, _) => pure (.error (verdict failure))
  | more + 1 => do
    match ← session.discover s.request with
    | (.ok core, _) => pure (.ok core)
    | (.error failure, session) =>
      if failure.isRetryable then
        Pause.pause s.retryWait
        discoverFrom s session (attempt + 1) more
      else pure (.error (verdict failure))
where
  verdict : CoreLocator.Failure → Failure
    | .bufferTooSmall _ required => .documentTooLarge required s.bufferSize.toNat
    | failure => .gaveUp attempt failure

def discover (s : Settings) : m (Except Failure CoreAddress) :=
  discoverFrom s (.ofCapacity s.bufferSize.toNat) 1 (s.attempts.toNat - 1)

end Retry
end CoreLocator
