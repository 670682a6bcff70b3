import CoreLocator.Json.Fault

/-! Passing over one JSON value without decoding it. Escapes need only be well formed, and nesting
costs no depth: the containers still open are a list. Every reader leaves less than it was given,
which the length lemmas state. -/
namespace CoreLocator.Json

abbrev Skimmed := Except Fault Bytes

def isBlank (b : UInt8) : Bool := b == 0x20 || b == 0x0A || b == 0x09 || b == 0x0D

def skipBlanks (s : Bytes) : Bytes := s.dropWhile isBlank

theorem length_dropWhile_le (p : UInt8 → Bool) (s : Bytes) : (s.dropWhile p).length ≤ s.length :=
  (List.dropWhile_sublist p).length_le

theorem length_of_skipBlanks {s t : Bytes} {b : UInt8} (h : skipBlanks s = b :: t) :
    t.length < s.length := by
  have := length_dropWhile_le isBlank s
  simp only [skipBlanks] at h
  simp only [h, List.length_cons] at this
  omega

/-- The value of four hexadecimal digits. The text has to be long enough before the digits are
looked at. -/
def hexWord (s : Bytes) : Except Fault (Nat × Bytes) :=
  match s with
  | a :: b :: c :: d :: t =>
    match Ascii.hexDigit? a, Ascii.hexDigit? b, Ascii.hexDigit? c, Ascii.hexDigit? d with
    | some a, some b, some c, some d => .ok (((a * 16 + b) * 16 + c) * 16 + d, t)
    | _, _, _, _ => .error (.before t .invalidEscape)
  | _ => .error (.before [] .endInString)

theorem length_of_hexWord {s t : Bytes} {n : Nat} (h : hexWord s = .ok (n, t)) :
    t.length < s.length := by
  unfold hexWord at h
  split at h
  · split at h
    · simp only [Except.ok.injEq, Prod.mk.injEq] at h
      simp only [← h.2, List.length_cons]
      omega
    · simp at h
  · simp at h

/-- What a one-letter escape stands for. -/
def simpleEscape? (b : UInt8) : Option UInt8 :=
  if b = 0x22 || b = 0x5C || b = 0x2F then some b
  else if b = 0x62 then some 0x08
  else if b = 0x66 then some 0x0C
  else if b = 0x6E then some 0x0A
  else if b = 0x72 then some 0x0D
  else if b = 0x74 then some 0x09
  else none

/-- The rest of an escape, behind its backslash. -/
def skimEscape : Bytes → Skimmed
  | [] => .error (.before [] .endInString)
  | b :: s =>
    if b = 0x75 then (hexWord s).map Prod.snd
    else if (simpleEscape? b).isSome then .ok s
    else .error (.before s .invalidEscape)

theorem length_of_skimEscape {s t : Bytes} (h : skimEscape s = .ok t) : t.length < s.length := by
  unfold skimEscape at h
  split at h
  · simp at h
  · rename_i b s
    split at h
    · cases hw : hexWord s with
      | error => simp [hw, Except.map] at h
      | ok r =>
        have := length_of_hexWord (n := r.1) (t := r.2) hw
        simp only [hw, Except.map, Except.ok.injEq] at h
        simp only [List.length_cons, ← h]
        omega
    · split at h
      · simp only [Except.ok.injEq] at h
        simp [h]
      · simp at h

/-- The rest of a string, behind its opening quote. -/
def skimString : Bytes → Skimmed
  | [] => .error (.before [] .endInString)
  | b :: s =>
    if b = 0x22 then .ok s
    else if b = 0x5C then
      match _h : skimEscape s with
      | .error fault => .error fault
      | .ok t => skimString t
    else if b < 0x20 then .error (.before (b :: s) .controlCharacter)
    else skimString s
termination_by s => s.length
decreasing_by
  · have := length_of_skimEscape _h
    simp only [List.length_cons]
    omega
  · simp

theorem length_of_skimString {s t : Bytes} (h : skimString s = .ok t) : t.length < s.length := by
  fun_induction skimString s with
  | case1 => simp at h
  | case2 => simp_all
  | case3 => simp at h
  | case4 s r hr _ ih =>
    have := length_of_skimEscape hr
    have := ih h
    simp only [List.length_cons]
    omega
  | case5 => simp at h
  | case6 b s _ _ _ ih =>
    have := ih h
    simp only [List.length_cons]
    omega

/-- The rest of a word whose letters are known. -/
def skimWord : Bytes → Bytes → Skimmed
  | [], s => .ok s
  | _ :: _, [] => .error (.before [] .endInValue)
  | w :: word, b :: s => if b = w then skimWord word s else .error (.before s .expectedWord)

theorem length_of_skimWord {word s t : Bytes} (h : skimWord word s = .ok t) :
    t.length ≤ s.length := by
  fun_induction skimWord word s with
  | case1 => simp_all
  | case2 => simp at h
  | case3 word b s ih =>
    have := ih h
    simp only [List.length_cons]
    omega
  | case4 => simp at h

def skimDigits (s : Bytes) : Bytes := s.dropWhile Ascii.isDigit

/-- An exponent, behind its letter. -/
def skimExponent (s : Bytes) : Skimmed :=
  let unsigned := match s with
    | [] => []
    | b :: t => if b = 0x2B || b = 0x2D then t else b :: t
  match unsigned with
  | [] => .error (.before [] .invalidNumber)
  | b :: t =>
    if Ascii.isDigit b then .ok (skimDigits t) else .error (.before t .invalidNumber)

def skimOptionalExponent (s : Bytes) : Skimmed :=
  match s with
  | [] => .ok []
  | b :: t => if b = 0x65 || b = 0x45 then skimExponent t else .ok (b :: t)

/-- The fraction and exponent, either of which may be missing. -/
def skimFraction (s : Bytes) : Skimmed :=
  match s with
  | [] => .ok []
  | b :: t =>
    if b = 0x2E then
      match t with
      | [] => .error (.on [] .invalidNumber)
      | d :: u =>
        if Ascii.isDigit d then skimOptionalExponent (skimDigits u)
        else .error (.on (d :: u) .invalidNumber)
    else skimOptionalExponent (b :: t)

/-- An unsigned number: no zero in front of another digit. -/
def skimNumber : Bytes → Skimmed
  | [] => .error (.before [] .invalidNumber)
  | b :: s =>
    if b = 0x30 then
      match s with
      | [] => .ok []
      | d :: t =>
        if Ascii.isDigit d then .error (.on (d :: t) .invalidNumber) else skimFraction (d :: t)
    else if Ascii.isDigit b then skimFraction (skimDigits s)
    else .error (.before s .invalidNumber)

theorem length_of_skimExponent {s t : Bytes} (h : skimExponent s = .ok t) :
    t.length ≤ s.length := by
  unfold skimExponent at h
  have tail (u : Bytes) : (skimDigits u).length ≤ u.length := length_dropWhile_le _ u
  cases s with
  | nil => simp at h
  | cons b s =>
    simp only at h
    split at h
    · simp at h
    · rename_i c u hu
      split at h
      · simp only [Except.ok.injEq] at h
        have := tail u
        have size : (c :: u).length ≤ (b :: s).length := by
          rw [← hu]
          split <;> simp
        simp only [List.length_cons] at size ⊢
        simp only [← h]
        omega
      · simp at h

theorem length_of_skimOptionalExponent {s t : Bytes} (h : skimOptionalExponent s = .ok t) :
    t.length ≤ s.length := by
  unfold skimOptionalExponent at h
  split at h
  · simp_all
  · split at h
    · have := length_of_skimExponent h
      simp only [List.length_cons]
      omega
    · simp_all

theorem length_of_skimFraction {s t : Bytes} (h : skimFraction s = .ok t) :
    t.length ≤ s.length := by
  unfold skimFraction at h
  split at h
  · simp_all
  · split at h
    · split at h
      · simp at h
      · rename_i d u
        split at h
        · have := length_of_skimOptionalExponent h
          have : (skimDigits u).length ≤ u.length := length_dropWhile_le _ u
          simp only [List.length_cons]
          omega
        · simp at h
    · have := length_of_skimOptionalExponent h
      simpa using this

theorem length_of_skimNumber {s t : Bytes} (h : skimNumber s = .ok t) : t.length < s.length := by
  unfold skimNumber at h
  split at h
  · simp at h
  · rename_i b s
    split at h
    · split at h
      · simp_all
      · split at h
        · simp at h
        · have := length_of_skimFraction h
          simp only [List.length_cons] at this ⊢
          omega
    · split at h
      · have := length_of_skimFraction h
        have : (skimDigits s).length ≤ s.length := length_dropWhile_le _ s
        simp only [List.length_cons]
        omega
      · simp at h

/-- A value that is no container. -/
def skimScalar : Bytes → Skimmed
  | [] => .error (.on [] .expectedValue)
  | b :: s =>
    if b = 0x22 then skimString s
    else if b = 0x6E then skimWord [0x75, 0x6C, 0x6C] s
    else if b = 0x74 then skimWord [0x72, 0x75, 0x65] s
    else if b = 0x66 then skimWord [0x61, 0x6C, 0x73, 0x65] s
    else if b = 0x2D then skimNumber s
    else if Ascii.isDigit b then skimNumber (b :: s)
    else .error (.on (b :: s) .expectedValue)

theorem length_of_skimScalar {s t : Bytes} (h : skimScalar s = .ok t) : t.length < s.length := by
  unfold skimScalar at h
  split at h
  · simp at h
  · rename_i b s
    simp only [List.length_cons]
    have word {w : Bytes} (h : skimWord w s = .ok t) : t.length < s.length + 1 :=
      Nat.lt_succ_of_le (length_of_skimWord h)
    split at h
    · exact Nat.lt_succ_of_lt (length_of_skimString h)
    split at h
    · exact word h
    split at h
    · exact word h
    split at h
    · exact word h
    split at h
    · exact Nat.lt_succ_of_lt (length_of_skimNumber h)
    split at h
    · exact length_of_skimNumber h
    · simp at h

/-- The containers that a value may stand in. -/
inductive Container
  | list
  | object
  deriving DecidableEq, Repr

namespace Container

def closer : Container → UInt8
  | list => 0x5D
  | object => 0x7D

def endCause : Container → Cause
  | list => .endInList
  | object => .endInObject

def separatorCause : Container → Cause
  | list => .expectedListSeparator
  | object => .expectedObjectSeparator

/-- The container that a byte opens. -/
def opened? (b : UInt8) : Option Container :=
  if b = 0x5B then some list else if b = 0x7B then some object else none

end Container

/-- The colon between a key and its value. -/
def skimColon (s : Bytes) : Skimmed :=
  match skipBlanks s with
  | [] => .error (.on [] .endInObject)
  | b :: t => if b = 0x3A then .ok t else .error (.on (b :: t) .expectedColon)

theorem length_of_skimColon {s t : Bytes} (h : skimColon s = .ok t) : t.length < s.length := by
  unfold skimColon at h
  split at h
  · simp at h
  · rename_i b u hu
    have := length_of_skipBlanks hu
    split at h
    · simp_all
    · simp at h

/-- A key and its colon. -/
def skimKey (s : Bytes) : Skimmed :=
  match skipBlanks s with
  | [] => .error (.on [] .endInObject)
  | b :: t =>
    if b = 0x22 then
      match skimString t with
      | .error fault => .error fault
      | .ok u => skimColon u
    else .error (.on (b :: t) .keyNotString)

theorem length_of_skimKey {s t : Bytes} (h : skimKey s = .ok t) : t.length < s.length := by
  unfold skimKey at h
  split at h
  · simp at h
  · rename_i b u hu
    have := length_of_skipBlanks hu
    split at h
    · split at h
      · simp at h
      · rename_i v hv
        have := length_of_skimString hv
        have := length_of_skimColon h
        omega
    · simp at h

mutual

/-- Passes over a value, and then over what is left of the containers around it. -/
def skimValue (around : List Container) (s : Bytes) : Skimmed :=
  match _h : skipBlanks s with
  | [] => .error (.on [] .endInValue)
  | b :: t =>
    match Container.opened? b with
    | some c => skimFirst c around t
    | none =>
      match _scalar : skimScalar (b :: t) with
      | .error fault => .error fault
      | .ok u => skimAfter around u
termination_by 3 * s.length
decreasing_by
  · have := length_of_skipBlanks _h
    omega
  · have := length_of_skipBlanks _h
    have := length_of_skimScalar _scalar
    simp only [List.length_cons] at this
    omega

/-- Behind the opening of a container: its end, or its first item. -/
def skimFirst (c : Container) (around : List Container) (s : Bytes) : Skimmed :=
  match _h : skipBlanks s with
  | [] => .error (.on [] c.endCause)
  | b :: t => if b = c.closer then skimAfter around t else skimItem c around (b :: t)
termination_by 3 * s.length + 2
decreasing_by
  · have := length_of_skipBlanks _h
    omega
  · have := length_of_skipBlanks _h
    simp only [List.length_cons]
    omega

/-- An item of the innermost container. -/
def skimItem (c : Container) (around : List Container) (s : Bytes) : Skimmed :=
  match c with
  | .list => skimValue (.list :: around) s
  | .object =>
    match _h : skimKey s with
    | .error fault => .error fault
    | .ok t => skimValue (.object :: around) t
termination_by 3 * s.length + 1
decreasing_by
  · omega
  · have := length_of_skimKey _h
    omega

/-- Behind a value: the next item or the end of the innermost container, if there is one. -/
def skimAfter (around : List Container) (s : Bytes) : Skimmed :=
  match around with
  | [] => .ok s
  | c :: outer =>
    match _h : skipBlanks s with
    | [] => .error (.on [] c.endCause)
    | b :: t =>
      if b = 0x2C then skimItem c outer t
      else if b = c.closer then skimAfter outer t
      else .error (.on (b :: t) c.separatorCause)
termination_by 3 * s.length
decreasing_by
  · have := length_of_skipBlanks _h
    omega
  · have := length_of_skipBlanks _h
    omega

end

mutual

theorem length_of_skimValue (around : List Container) (s : Bytes) {t : Bytes}
    (h : skimValue around s = .ok t) : t.length < s.length := by
  rw [skimValue] at h
  split at h
  · simp at h
  · rename_i b u hu
    have := length_of_skipBlanks hu
    split at h
    · rename_i c _
      have := length_of_skimFirst c around u h
      omega
    · split at h
      · simp at h
      · rename_i v hv
        have := length_of_skimScalar hv
        have shorter : v.length < s.length := by
          simp only [List.length_cons] at this
          omega
        have := length_of_skimAfter around v h
        omega
termination_by 3 * s.length

theorem length_of_skimFirst (c : Container) (around : List Container) (s : Bytes) {t : Bytes}
    (h : skimFirst c around s = .ok t) : t.length < s.length := by
  rw [skimFirst] at h
  split at h
  · simp at h
  · rename_i b u hu
    have := length_of_skipBlanks hu
    split at h
    · have := length_of_skimAfter around u h
      omega
    · have start : (b :: u).length ≤ s.length := this
      have := length_of_skimItem c around (b :: u) h
      omega
termination_by 3 * s.length + 2

theorem length_of_skimItem (c : Container) (around : List Container) (s : Bytes) {t : Bytes}
    (h : skimItem c around s = .ok t) : t.length < s.length := by
  rw [skimItem.eq_def] at h
  split at h
  · exact length_of_skimValue (.list :: around) s h
  · split at h
    · simp at h
    · rename_i u hu
      have := length_of_skimKey hu
      have := length_of_skimValue (.object :: around) u h
      omega
termination_by 3 * s.length + 1

theorem length_of_skimAfter (around : List Container) (s : Bytes) {t : Bytes}
    (h : skimAfter around s = .ok t) : t.length ≤ s.length := by
  rw [skimAfter.eq_def] at h
  split at h
  · simp_all
  · rename_i c outer
    split at h
    · simp at h
    · rename_i b u hu
      have := length_of_skipBlanks hu
      split at h
      · have := length_of_skimItem c outer u h
        omega
      split at h
      · have := length_of_skimAfter outer u h
        omega
      · simp at h
termination_by 3 * s.length

end

/-- Passes over one value. -/
def skim (s : Bytes) : Skimmed := skimValue [] s

theorem length_of_skim {s t : Bytes} (h : skim s = .ok t) : t.length < s.length :=
  length_of_skimValue [] s h

/-- Only blanks may follow a document's value. -/
def checkEnd (s : Bytes) : Except Fault Unit :=
  match skipBlanks s with
  | [] => .ok ()
  | rest => .error (.on rest .trailingText)

/-- Whether a text is one value and nothing else. -/
def check (s : Bytes) : Except Fault Unit :=
  match skim s with
  | .error fault => .error fault
  | .ok rest => checkEnd rest

end CoreLocator.Json
