import CoreLocator.Json.Text

/-! Walking over the members of an object and the elements of a list. `first` says that none was
passed yet, so that no comma is due. -/
namespace CoreLocator.Json

/-- A key with the text behind it, where only a key may stand. -/
def readKey : Bytes → Except Fault (Bytes × Bytes)
  | [] => .error (.on [] .keyNotString)
  | b :: s => if b = 0x22 then readString s else .error (.on (b :: s) .keyNotString)

theorem length_of_readKey {s key t : Bytes} (h : readKey s = .ok (key, t)) :
    t.length < s.length := by
  unfold readKey at h
  split at h
  · simp at h
  · split at h
    · exact Nat.lt_succ_of_lt (length_of_readString h)
    · simp at h

/-- The next key of an object, or none at its end, and the text behind either. -/
def nextKey (first : Bool) (s : Bytes) : Except Fault (Option Bytes × Bytes) :=
  match skipBlanks s with
  | [] => .error (.on [] .endInObject)
  | b :: t =>
    if b = 0x7D then .ok (none, t)
    else if first then
      match readKey (b :: t) with
      | .error fault => .error fault
      | .ok (key, u) => .ok (some key, u)
    else if b = 0x2C then
      match skipBlanks t with
      | [] => .error (.on [] .endInValue)
      | c :: u =>
        if c = 0x7D then .error (.on (c :: u) .trailingComma)
        else match readKey (c :: u) with
          | .error fault => .error fault
          | .ok (key, v) => .ok (some key, v)
    else .error (.on (b :: t) .expectedObjectSeparator)

theorem length_of_nextKey {first : Bool} {s t : Bytes} {key : Option Bytes}
    (h : nextKey first s = .ok (key, t)) : t.length < s.length := by
  unfold nextKey at h
  split at h
  · simp at h
  · rename_i b u hu
    have := length_of_skipBlanks hu
    have start : (b :: u).length ≤ s.length := this
    split at h
    · simp only [Except.ok.injEq, Prod.mk.injEq] at h
      rw [← h.2]
      exact this
    split at h
    · split at h
      · simp at h
      · rename_i hk
        have := length_of_readKey hk
        simp only [Except.ok.injEq, Prod.mk.injEq] at h
        rw [← h.2]
        omega
    split at h
    · split at h
      · simp at h
      · rename_i c v hv
        have := length_of_skipBlanks hv
        split at h
        · simp at h
        · split at h
          · simp at h
          · rename_i hk
            have := length_of_readKey hk
            simp only [Except.ok.injEq, Prod.mk.injEq] at h
            simp only [List.length_cons] at this
            rw [← h.2]
            omega
    · simp at h

/-- Whether a list has another element, and the text that starts with it or follows the list. -/
def nextElement (first : Bool) (s : Bytes) : Except Fault (Bool × Bytes) :=
  match skipBlanks s with
  | [] => .error (.on [] .endInList)
  | b :: t =>
    if b = 0x5D then .ok (false, t)
    else if first then .ok (true, b :: t)
    else if b = 0x2C then
      match skipBlanks t with
      | [] => .error (.on [] .endInValue)
      | c :: u => if c = 0x5D then .error (.on (c :: u) .trailingComma) else .ok (true, c :: u)
    else .error (.on (b :: t) .expectedListSeparator)

theorem length_of_nextElement {first more : Bool} {s t : Bytes}
    (h : nextElement first s = .ok (more, t)) : t.length ≤ s.length := by
  unfold nextElement at h
  split at h
  · simp at h
  · rename_i b u hu
    have := length_of_skipBlanks hu
    split at h
    · simp only [Except.ok.injEq, Prod.mk.injEq] at h
      rw [← h.2]
      omega
    split at h
    · simp only [Except.ok.injEq, Prod.mk.injEq] at h
      rw [← h.2]
      exact this
    split at h
    · split at h
      · simp at h
      · rename_i c v hv
        have := length_of_skipBlanks hv
        split at h
        · simp at h
        · simp only [Except.ok.injEq, Prod.mk.injEq] at h
          rw [← h.2]
          exact Nat.le_trans this (by omega)
    · simp at h

end CoreLocator.Json
