import CoreLocator.Proofs.Request
import CoreLocator.Settings

/-! The checks that settings go through and the request that is made of them. The name and the size
of the buffer are found wanting by a check exactly if the request could not be written, and in the
same way. -/
namespace CoreLocator

/-- The failure to write a request that a defect of the settings foretells. -/
def SettingsDefect.failure? : SettingsDefect → Option Failure
  | thingName defect => some (.invalidRequest defect)
  | bufferTooSmall size required => some (.bufferTooSmall size required)
  | _ => none

namespace Settings
variable {s : Settings} {buffer : Bytes} {defect : SettingsDefect} {failure : Failure}

theorem check_eq (s : Settings) : s.check =
    if s.endpoint.isEmpty then .error .emptyEndpoint
    else if s.port = 0 then .error .zeroPort
    else match Request.checkName s.thingName with
      | .error defect => .error (.thingName defect)
      | .ok () =>
        if s.bufferSize.toNat < Request.length s.thingName then
          .error (.bufferTooSmall s.bufferSize.toNat (Request.length s.thingName))
        else if s.timeouts.connect = 0 ∨ s.timeouts.io = 0 then .error .zeroTimeout
        else if s.attempts = 0 then .error .zeroAttempts
        else if s.clientCertPath.isSome ≠ s.clientKeyPath.isSome then .error .halfIdentity
        else .ok () := by
  unfold check
  generalize Request.checkName s.thingName = named
  cases named <;> rfl

/-- Settings with a service to ask are rejected for what the request is made of exactly if writing
it fails, and with that failure. -/
theorem check_iff_write (size : buffer.length = s.bufferSize.toNat) :
    (∃ defect, s.check = .error defect ∧ defect.failure? = some failure) ↔
      s.endpoint.isEmpty = false ∧ s.port ≠ 0 ∧
        (Request.write buffer s.thingName).1 = .error failure := by
  have silent {other defect : SettingsDefect}
      (rejected : (.error other : Except SettingsDefect Unit) = .error defect)
      (unforetold : other.failure? = none) : defect.failure? ≠ some failure := by
    rw [← Except.error.inj rejected, unforetold]
    exact nofun
  constructor
  · rintro ⟨defect, rejected, foretold⟩
    rw [check_eq] at rejected
    split at rejected
    · exact absurd foretold (silent rejected rfl)
    next endpoint =>
    split at rejected
    · exact absurd foretold (silent rejected rfl)
    next port =>
    refine ⟨Bool.eq_false_iff.mpr endpoint, port, ?_⟩
    split at rejected
    · next named =>
      obtain rfl := Except.error.inj rejected
      obtain rfl := Option.some.inj foretold
      simp only [Request.write, named]
    next named =>
    split at rejected
    · next small =>
      obtain rfl := Except.error.inj rejected
      obtain rfl := Option.some.inj foretold
      rw [Request.write_of_small named (size ▸ small), size]
    split at rejected
    · exact absurd foretold (silent rejected rfl)
    split at rejected
    · exact absurd foretold (silent rejected rfl)
    split at rejected
    · exact absurd foretold (silent rejected rfl)
    · contradiction
  · rintro ⟨endpoint, port, failed⟩
    rw [check_eq, if_neg (Bool.eq_false_iff.mp endpoint), if_neg port]
    cases named : Request.checkName s.thingName with
    | error defect =>
      simp only [Request.write, named] at failed
      exact ⟨_, rfl, congrArg some (Except.error.inj failed)⟩
    | ok _ =>
      by_cases small : s.bufferSize.toNat < Request.length s.thingName
      · rw [Request.write_of_small named (size ▸ small), size] at failed
        exact ⟨_, if_pos small, congrArg some (Except.error.inj failed)⟩
      · rw [Request.write_of_fits named (size ▸ Nat.le_of_not_lt small)] at failed
        contradiction

theorem proper_of_check (accepted : s.check = .ok ()) :
    Request.checkName s.thingName = .ok () ∧
      Request.length s.thingName ≤ s.bufferSize.toNat := by
  rw [check_eq] at accepted
  split at accepted
  · contradiction
  split at accepted
  · contradiction
  split at accepted
  · contradiction
  · next named =>
    split at accepted
    · contradiction
    · next fits => exact ⟨named, Nat.le_of_not_lt fits⟩

end Settings
end CoreLocator
