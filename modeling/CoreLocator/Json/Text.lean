import CoreLocator.Json.Skim

/-! Decoding strings. An escaped character above U+FFFF is a pair of surrogates, and a surrogate
without its partner is refused. -/
namespace CoreLocator.Json

/-- The character of a leading and a trailing surrogate. -/
def pairedScalar (leading trailing : Nat) : Nat :=
  (leading - 0xD800) * 0x400 + (trailing - 0xDC00) + 0x10000

def isLeadingSurrogate (n : Nat) : Bool := 0xD800 ≤ n && n ≤ 0xDBFF
def isTrailingSurrogate (n : Nat) : Bool := 0xDC00 ≤ n && n ≤ 0xDFFF

/-- The one byte that has to come next inside a surrogate pair. -/
def expectPairing (expected : UInt8) : Bytes → Skimmed
  | [] => .error (.before [] .endInString)
  | b :: s => if b = expected then .ok s else .error (.before s .unpairedSurrogate)

theorem length_of_expectPairing {e : UInt8} {s t : Bytes} (h : expectPairing e s = .ok t) :
    t.length < s.length := by
  unfold expectPairing at h
  split at h
  · simp at h
  · split at h <;> simp_all

/-- The trailing half of a pair, behind the digits of the leading one. -/
def readTrailing (leading : Nat) (s : Bytes) : Except Fault (Nat × Bytes) :=
  match expectPairing 0x5C s with
  | .error fault => .error fault
  | .ok t =>
    match expectPairing 0x75 t with
    | .error fault => .error fault
    | .ok u =>
      match hexWord u with
      | .error fault => .error fault
      | .ok (trailing, v) =>
        if isTrailingSurrogate trailing then .ok (pairedScalar leading trailing, v)
        else .error (.before v .loneSurrogate)

theorem length_of_readTrailing {leading n : Nat} {s t : Bytes}
    (h : readTrailing leading s = .ok (n, t)) : t.length < s.length := by
  unfold readTrailing at h
  split at h
  · simp at h
  · rename_i u hu
    have := length_of_expectPairing hu
    split at h
    · simp at h
    · rename_i v hv
      have := length_of_expectPairing hv
      split at h
      · simp at h
      · rename_i w hw
        have := length_of_hexWord hw
        split at h
        · simp only [Except.ok.injEq, Prod.mk.injEq] at h
          rw [← h.2]
          omega
        · simp at h

/-- The character that an escape by number stands for, behind the letter `u`. -/
def readUnicode (s : Bytes) : Except Fault (Nat × Bytes) :=
  match hexWord s with
  | .error fault => .error fault
  | .ok (n, t) =>
    if isTrailingSurrogate n then .error (.before t .loneSurrogate)
    else if isLeadingSurrogate n then readTrailing n t
    else .ok (n, t)

theorem length_of_readUnicode {s t : Bytes} {n : Nat} (h : readUnicode s = .ok (n, t)) :
    t.length < s.length := by
  unfold readUnicode at h
  split at h
  · simp at h
  · rename_i hw
    have := length_of_hexWord hw
    split at h
    · simp at h
    split at h
    · have := length_of_readTrailing h
      omega
    · simp only [Except.ok.injEq, Prod.mk.injEq] at h
      rw [← h.2]
      omega

/-- The bytes that an escape stands for, behind its backslash. -/
def readEscape : Bytes → Except Fault (Bytes × Bytes)
  | [] => .error (.before [] .endInString)
  | b :: s =>
    if b = 0x75 then
      match readUnicode s with
      | .error fault => .error fault
      | .ok (n, t) => .ok (String.utf8EncodeChar (Char.ofNat n), t)
    else
      match simpleEscape? b with
      | some decoded => .ok ([decoded], s)
      | none => .error (.before s .invalidEscape)

theorem length_of_readEscape {s t decoded : Bytes} (h : readEscape s = .ok (decoded, t)) :
    t.length < s.length := by
  unfold readEscape at h
  split at h
  · simp at h
  · rename_i b s
    simp only [List.length_cons]
    split at h
    · split at h
      · simp at h
      · rename_i hu
        have := length_of_readUnicode hu
        simp only [Except.ok.injEq, Prod.mk.injEq] at h
        rw [← h.2]
        omega
    · split at h
      · simp only [Except.ok.injEq, Prod.mk.injEq] at h
        rw [← h.2]
        omega
      · simp at h

/-- The content of a string and what follows it, behind the opening quote. -/
def readString : Bytes → Except Fault (Bytes × Bytes)
  | [] => .error (.before [] .endInString)
  | b :: s =>
    if b = 0x22 then .ok ([], s)
    else if b = 0x5C then
      match _h : readEscape s with
      | .error fault => .error fault
      | .ok (decoded, t) =>
        match readString t with
        | .error fault => .error fault
        | .ok (content, rest) => .ok (decoded ++ content, rest)
    else if b < 0x20 then .error (.before s .controlCharacter)
    else
      match readString s with
      | .error fault => .error fault
      | .ok (content, rest) => .ok (b :: content, rest)
termination_by s => s.length
decreasing_by
  · have := length_of_readEscape _h
    simp only [List.length_cons]
    omega
  · simp

theorem length_of_readString {s content t : Bytes} (h : readString s = .ok (content, t)) :
    t.length < s.length := by
  fun_induction readString s generalizing content with
  | case1 => simp at h
  | case2 => simp_all
  | case3 => simp at h
  | case4 => simp at h
  | case5 s decoded u hu c rest hr _ ih =>
    have := length_of_readEscape hu
    simp only [Except.ok.injEq, Prod.mk.injEq] at h
    have := ih (h.2 ▸ hr)
    simp only [List.length_cons]
    omega
  | case6 => simp at h
  | case7 => simp at h
  | case8 b s _ _ _ c rest hr ih =>
    simp only [Except.ok.injEq, Prod.mk.injEq] at h
    have := ih (h.2 ▸ hr)
    simp only [List.length_cons]
    omega

end CoreLocator.Json
