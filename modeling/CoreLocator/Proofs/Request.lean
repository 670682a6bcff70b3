import CoreLocator.Request

/-! What writing a request leaves in the buffer. -/
namespace CoreLocator.Request

variable {buffer written : Bytes} {thingName : String} {length : Nat}

theorem bytes_ne_nil (thingName : String) : bytes thingName ≠ [] := by
  have first : Bytes.ofString opening = 0x47 :: (Bytes.ofString opening).tail := by decide +kernel
  rw [bytes, first]
  exact List.cons_ne_nil _ _

theorem write_of_fits (named : checkName thingName = .ok ())
    (fits : Request.length thingName ≤ buffer.length) : write buffer thingName =
      (.ok (Request.length thingName),
        bytes thingName ++ buffer.drop (Request.length thingName)) := by
  simp only [write, named]
  exact if_neg (Nat.not_lt_of_le fits)

theorem write_of_small (named : checkName thingName = .ok ())
    (small : buffer.length < Request.length thingName) : write buffer thingName =
      (.error (.bufferTooSmall buffer.length (Request.length thingName)), buffer) := by
  simp only [write, named]
  exact if_pos small

theorem write_of_error {failure : Failure}
    (refused : write buffer thingName = (.error failure, written)) : written = buffer := by
  unfold write at refused
  split at refused
  · exact (Prod.mk.inj refused).2.symm
  · dsimp only at refused
    split at refused
    · exact (Prod.mk.inj refused).2.symm
    · simp at refused

/-- What has been written is the request, and as much of the buffer as it does not reach. -/
theorem take_of_write (wrote : write buffer thingName = (.ok length, written)) :
    written.take length = bytes thingName ∧ written.length = buffer.length := by
  unfold write at wrote
  split at wrote
  · simp at wrote
  · dsimp only at wrote
    split at wrote
    · simp at wrote
    · next fits =>
      obtain ⟨same, rfl⟩ := Prod.mk.inj wrote
      obtain rfl := Except.ok.inj same
      refine ⟨List.take_left, ?_⟩
      rw [List.length_append, List.length_drop]
      omega

theorem length_of_write {outcome : Except Failure Nat}
    (wrote : write buffer thingName = (outcome, written)) : written.length = buffer.length := by
  cases outcome with
  | error failure => rw [write_of_error wrote]
  | ok length => exact (take_of_write wrote).2

/-- Whether there is room for the request depends on the buffer's length alone. -/
theorem write_of_length {other : Bytes} (same : other.length = buffer.length) :
    (write other thingName).1 = (write buffer thingName).1 := by
  unfold write
  cases checkName thingName with
  | error defect => rfl
  | ok _ =>
    dsimp only
    rw [same]
    split <;> rfl

end CoreLocator.Request
