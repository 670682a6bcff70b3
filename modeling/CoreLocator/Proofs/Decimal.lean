import CoreLocator.Decimal

/-! Numbers as they are written: reading the digits of a number gives the number, whatever blanks
stand before them and whatever follows. -/
namespace CoreLocator.Decimal

/-- The digits of a number, without leading zeros. -/
def spell (n : Nat) : Bytes := .ofString (toString n)

theorem spell_of_lt {n : Nat} (small : n < 10) : spell n = [UInt8.ofNat (0x30 + n)] := by
  have digit : ∀ d < 10, String.utf8EncodeChar (Nat.digitChar d) = [UInt8.ofNat (0x30 + d)] := by
    decide
  simp only [spell, Bytes.ofString, Nat.toString_eq_ofList_toDigits, String.toList_ofList,
    Nat.toDigits_of_lt_base small, List.flatMap_cons, List.flatMap_nil, List.append_nil,
    digit n small]

theorem spell_of_le {n : Nat} (large : 10 ≤ n) : spell n = spell (n / 10) ++ spell (n % 10) := by
  have last : n % 10 < 10 := Nat.mod_lt n (by decide)
  simp only [spell, Bytes.ofString, Nat.toString_eq_ofList_toDigits, String.toList_ofList,
    ← List.flatMap_append, Nat.toDigits_of_base_le (by decide) large,
    Nat.toDigits_of_lt_base last]

theorem toNat_digit {d : Nat} (digit : d < 10) : (UInt8.ofNat (0x30 + d)).toNat = 0x30 + d := by
  simp only [UInt8.toNat_ofNat']
  omega

theorem isDigit_of_mem_spell {n : Nat} {b : UInt8} (member : b ∈ spell n) :
    Ascii.isDigit b = true := by
  induction n using Nat.strongRecOn with
  | ind n ih =>
    by_cases small : n < 10
    · rw [spell_of_lt small, List.mem_singleton] at member
      have value := toNat_digit small
      rw [← member] at value
      simp only [Ascii.isDigit, UInt8.le_iff_toNat_le, Bool.and_eq_true, decide_eq_true_eq, value]
      exact ⟨Nat.le_add_right _ _, by simp; omega⟩
    · rw [spell_of_le (Nat.le_of_not_lt small), List.mem_append] at member
      rcases member with front | last
      · exact ih (n / 10) (by omega) front
      · exact ih (n % 10) (by omega) last

theorem spell_ne_nil (n : Nat) : spell n ≠ [] := by
  by_cases small : n < 10
  · simp [spell_of_lt small]
  · have last : n % 10 < 10 := Nat.mod_lt n (by decide)
    simp [spell_of_le (Nat.le_of_not_lt small), spell_of_lt last]

theorem head_spell (n : Nat) :
    ∃ b digits, spell n = b :: digits ∧ Ascii.isDigit b = true := by
  obtain ⟨b, digits, spelled⟩ := List.exists_cons_of_ne_nil (spell_ne_nil n)
  refine ⟨b, digits, spelled, isDigit_of_mem_spell (n := n) ?_⟩
  rw [spelled]
  exact List.mem_cons_self

/-- Only zero itself is written with a zero in front. -/
theorem head_spell_ne {n : Nat} (positive : n ≠ 0) : ∀ b ∈ (spell n).head?, b ≠ 0x30 := by
  induction n using Nat.strongRecOn with
  | ind n ih =>
    by_cases small : n < 10
    · rw [spell_of_lt small]
      intro b first same
      have value := toNat_digit small
      rw [Option.some.inj first, same] at value
      exact positive (Nat.left_eq_add.mp value)
    · obtain ⟨first, digits, front⟩ := List.exists_cons_of_ne_nil (spell_ne_nil (n / 10))
      rw [spell_of_le (Nat.le_of_not_lt small), front]
      have ih := ih (n / 10) (by omega) (by omega)
      rw [front] at ih
      exact ih

/-- A number of few digits is small. -/
theorem lt_of_length_spell_le {n width : Nat} (short : (spell n).length ≤ width) :
    n < Nat.pow 10 width := by
  induction n using Nat.strongRecOn generalizing width with
  | ind n ih =>
    have last : n % 10 < 10 := Nat.mod_lt n (by decide)
    have nonempty : 0 < (spell n).length := List.length_pos_iff.mpr (spell_ne_nil n)
    obtain ⟨width, rfl⟩ : ∃ fewer, width = fewer + 1 := ⟨width - 1, by omega⟩
    have positive : 0 < Nat.pow 10 width := Nat.pow_pos (by decide)
    change n < Nat.pow 10 width * 10
    by_cases small : n < 10
    · omega
    · rw [spell_of_le (Nat.le_of_not_lt small), List.length_append, spell_of_lt last,
        List.length_singleton] at short
      have fewer : (spell (n / 10)).length ≤ width := by omega
      have := ih (n / 10) (by omega) fewer
      omega

/-- Digits are read exactly as long as the number stays below the limit. -/
theorem below?_spell {limit n : Nat} (fits : n < limit) : below? limit (spell n) = some n := by
  induction n using Nat.strongRecOn with
  | ind n ih =>
    have one : ∀ m d, d < 10 → 10 * m + d < limit →
        push? limit m (UInt8.ofNat (0x30 + d)) = some (10 * m + d) := by
      intro m d digit below
      simp only [push?, toNat_digit digit, Nat.add_sub_cancel_left, if_pos below]
    by_cases small : n < 10
    · have read := one 0 n small (by omega)
      simp only [below?, spell_of_lt small, List.foldlM_cons, List.foldlM_nil, read]
      simp
    · have read := one (n / 10) (n % 10) (Nat.mod_lt n (by decide)) (by omega)
      have front := ih (n / 10) (by omega) (by omega)
      rw [below?] at front
      rw [below?, spell_of_le (Nat.le_of_not_lt small), List.foldlM_append, front,
        spell_of_lt (Nat.mod_lt n (by decide))]
      simp only [Option.bind_eq_bind, Option.bind_some, List.foldlM_cons, List.foldlM_nil, read]
      simp [Nat.div_add_mod]

theorem visible_of_isDigit {b : UInt8} (digit : Ascii.isDigit b = true) :
    Ascii.isSpace b = false ∧ b ≠ 0x2B := by
  have range : 0x30 ≤ b.toNat ∧ b.toNat ≤ 0x39 := by
    simpa [Ascii.isDigit, UInt8.le_iff_toNat_le] using digit
  have other : ∀ a : UInt8, a.toNat < 0x30 → b ≠ a := by
    rintro a below rfl
    omega
  refine ⟨?_, other 0x2B (by decide)⟩
  simp [Ascii.isSpace, other]

/-- Blanks before a number and text behind it do not change what is read. -/
theorem leading_spell {n k : Nat} {rest : Bytes} (fits : n < wordLimit)
    (ends : ∀ b ∈ rest.head?, Ascii.isDigit b = false) :
    leading (List.replicate k 0x20 ++ (spell n ++ rest)) = n := by
  obtain ⟨first, digits, spelled, digit⟩ := head_spell n
  obtain ⟨space, plus⟩ := visible_of_isDigit digit
  have blanks : (List.replicate k (0x20 : UInt8) ++ (spell n ++ rest)).dropWhile Ascii.isSpace =
      spell n ++ rest := by
    rw [List.dropWhile_append_of_pos (fun b member => by
      rw [List.eq_of_mem_replicate member]; rfl), spelled, List.cons_append,
      List.dropWhile_cons_of_neg (by simp [space])]
  have unsigned : skipPlus (spell n ++ rest) = spell n ++ rest := by
    rw [spelled, List.cons_append, skipPlus, if_neg plus]
  have run : (spell n ++ rest).takeWhile Ascii.isDigit = spell n := by
    rw [List.takeWhile_append_of_pos (fun b => isDigit_of_mem_spell)]
    cases rest with
    | nil => simp
    | cons b rest => simp [ends b (by simp)]
  rw [leading, blanks, unsigned, run, below?_spell fits, Option.getD_some]

section Digits

/-- At least one digit, zeros in front allowed. -/
structure Digits where
  first : Fin 10
  more : List (Fin 10)
  deriving DecidableEq, Repr

def digitByte (digit : Fin 10) : UInt8 := .ofNat (0x30 + digit)

/-- The number that `n` becomes with these digits behind it. -/
def extend (n : Nat) (digits : List (Fin 10)) : Nat :=
  digits.foldl (fun n digit => 10 * n + digit.val) n

def Digits.text (digits : Digits) : Bytes := (digits.first :: digits.more).map digitByte
def Digits.value (digits : Digits) : Nat := extend 0 (digits.first :: digits.more)

theorem isDigit_digitByte (digit : Fin 10) : Ascii.isDigit (digitByte digit) = true := by
  revert digit
  decide

theorem isDigit_of_mem_text {digits : Digits} {b : UInt8} (member : b ∈ digits.text) :
    Ascii.isDigit b = true := by
  obtain ⟨digit, -, rfl⟩ := List.mem_map.mp member
  exact isDigit_digitByte digit

theorem le_extend (n : Nat) (digits : List (Fin 10)) : n ≤ extend n digits := by
  induction digits generalizing n with
  | nil => exact Nat.le_refl n
  | cons digit digits ih => exact Nat.le_trans (by omega) (ih (10 * n + digit))

/-- Reading digits below a limit gives their number, or nothing if it reaches the limit. -/
theorem foldlM_push? {limit n : Nat} (digits : List (Fin 10)) (below : n < limit) :
    (digits.map digitByte).foldlM (push? limit) n =
      if extend n digits < limit then some (extend n digits) else none := by
  induction digits generalizing n with
  | nil => rw [List.map_nil, List.foldlM_nil, extend, List.foldl_nil, if_pos below]; rfl
  | cons digit digits ih =>
    have value : (digitByte digit).toNat = 0x30 + digit := toNat_digit digit.isLt
    rw [List.map_cons, List.foldlM_cons, push?, value, Nat.add_sub_cancel_left]
    by_cases fits : 10 * n + digit < limit
    · rw [if_pos fits]
      exact ih fits
    · have large : ¬extend n (digit :: digits) < limit := by
        have := le_extend (10 * n + digit) digits
        exact fun small => fits (Nat.lt_of_le_of_lt this small)
      rw [if_neg fits, if_neg large]
      rfl

theorem exists_digits {s : Bytes} (inside : ∀ b ∈ s, Ascii.isDigit b = true) :
    ∃ digits : List (Fin 10), s = digits.map digitByte := by
  induction s with
  | nil => exact ⟨[], rfl⟩
  | cons b s ih =>
    obtain ⟨digits, rfl⟩ := ih fun b member => inside b (List.mem_cons_of_mem _ member)
    have range : 0x30 ≤ b.toNat ∧ b.toNat ≤ 0x39 := by
      simpa [Ascii.isDigit, UInt8.le_iff_toNat_le] using inside b List.mem_cons_self
    refine ⟨⟨b.toNat - 0x30, by omega⟩ :: digits, ?_⟩
    have same : digitByte ⟨b.toNat - 0x30, by omega⟩ = b := by
      rw [digitByte, ← UInt8.toNat_inj, toNat_digit (by dsimp only; omega)]
      dsimp only
      omega
    rw [List.map_cons, same]

/-- The shortest spelling of a number is one of them. -/
theorem exists_digits_spell (n : Nat) :
    ∃ digits : Digits, digits.text = spell n ∧ digits.value = n := by
  obtain ⟨values, spelled⟩ := exists_digits fun b => isDigit_of_mem_spell (n := n)
  have read := below?_spell (Nat.lt_succ_self n)
  rw [below?, spelled, foldlM_push? values (Nat.succ_pos n)] at read
  split at read
  · cases values with
    | nil => exact absurd spelled (spell_ne_nil n)
    | cons first more => exact ⟨⟨first, more⟩, spelled.symm, Option.some.inj read⟩
  · contradiction

/-- Digits behind at most one plus sign are a number if its value is below the limit. -/
theorem whole?_text {limit : Nat} (positive : 0 < limit) (plus : Bool) (digits : Digits) :
    whole? limit ((if plus then [0x2B] else []) ++ digits.text) =
      if digits.value < limit then some digits.value else none := by
  have unsigned : skipPlus ((if plus then [0x2B] else []) ++ digits.text) = digits.text := by
    cases plus with
    | true => rfl
    | false => exact if_neg (visible_of_isDigit (isDigit_digitByte digits.first)).2
  have inside : digits.text.all Ascii.isDigit = true :=
    List.all_eq_true.mpr fun _ => isDigit_of_mem_text
  have read := foldlM_push? (digits.first :: digits.more) positive
  unfold whole?
  rw [unsigned]
  split
  · next empty => contradiction
  · rw [if_pos inside, below?]
    exact read

/-- A whole number is at most one plus sign and then digits, with a value below the limit. -/
theorem whole?_eq_some {limit n : Nat} {s : Bytes} (positive : 0 < limit) :
    whole? limit s = some n ↔ ∃ (plus : Bool) (digits : Digits),
      s = (if plus then [0x2B] else []) ++ digits.text ∧ digits.value = n ∧ n < limit := by
  constructor
  · intro read
    obtain ⟨plus, unsigned⟩ : ∃ plus : Bool, s = (if plus then [0x2B] else []) ++ skipPlus s := by
      cases s with
      | nil => exact ⟨false, rfl⟩
      | cons b s =>
        by_cases sign : b = 0x2B
        · exact ⟨true, by rw [skipPlus, if_pos sign, sign]; rfl⟩
        · exact ⟨false, by rw [skipPlus, if_neg sign]; rfl⟩
    unfold whole? at read
    split at read
    · contradiction
    · next digits nonempty =>
      split at read
      · next inside =>
        obtain ⟨values, same⟩ := exists_digits (List.all_eq_true.mp inside)
        rw [below?, same, foldlM_push? values positive] at read
        split at read
        · next fits =>
          obtain rfl := Option.some.inj read
          cases values with
          | nil => exact absurd same nonempty
          | cons first more => exact ⟨plus, ⟨first, more⟩, by rw [unsigned, same]; rfl, rfl, fits⟩
        · contradiction
      · contradiction
  · rintro ⟨plus, digits, rfl, rfl, fits⟩
    rw [whole?_text positive plus digits, if_pos fits]

theorem extend_lt (n : Nat) (digits : List (Fin 10)) :
    extend n digits < (n + 1) * Nat.pow 10 digits.length := by
  induction digits generalizing n with
  | nil => exact Nat.lt_of_lt_of_eq (Nat.lt_succ_self n) (Nat.mul_one _).symm
  | cons digit digits ih =>
    have digit_lt := digit.isLt
    calc extend n (digit :: digits) < (10 * n + digit + 1) * Nat.pow 10 digits.length :=
        ih (10 * n + digit)
      _ ≤ ((n + 1) * 10) * Nat.pow 10 digits.length := Nat.mul_le_mul_right _ (by omega)
      _ = (n + 1) * (Nat.pow 10 digits.length * 10) := by
        rw [Nat.mul_assoc, Nat.mul_comm 10]

theorem length_skipPlus_le (s : Bytes) : (skipPlus s).length ≤ s.length := by
  cases s with
  | nil => exact Nat.le_refl 0
  | cons b s =>
    rw [skipPlus]
    split
    · exact Nat.le_succ _
    · exact Nat.le_refl _

/-- A number that starts a text has no more digits than the text has bytes. -/
theorem leading_lt (s : Bytes) : leading s < Nat.pow 10 s.length := by
  have spaces := (List.dropWhile_suffix (l := s) Ascii.isSpace).length_le
  have sign := length_skipPlus_le (s.dropWhile Ascii.isSpace)
  unfold leading
  generalize skipPlus (s.dropWhile Ascii.isSpace) = unsigned at sign
  have short := (List.takeWhile_prefix (l := unsigned) Ascii.isDigit).length_le
  have inside := List.all_eq_true.mp (List.all_takeWhile (l := unsigned) (p := Ascii.isDigit))
  obtain ⟨digits, same⟩ := exists_digits inside
  rw [same, List.length_map] at short
  have bound := extend_lt 0 digits
  have room : Nat.pow 10 digits.length ≤ Nat.pow 10 s.length :=
    Nat.pow_le_pow_right (by decide) (by omega)
  rw [same, below?, foldlM_push? digits (by decide)]
  split
  · rw [Option.getD_some]
    omega
  · exact Nat.pow_pos (by decide)

end Digits

section Numbers
variable {front s : Bytes}

/-- The digits of the number at the start of `s`, behind blanks and at most one plus sign. -/
def number (s : Bytes) : Bytes := (skipPlus (s.dropWhile Ascii.isSpace)).takeWhile Ascii.isDigit

/-- How many bytes stand before these digits. -/
def lead (s : Bytes) : Nat := s.length - (skipPlus (s.dropWhile Ascii.isSpace)).length

/-- The value of digits, however many they are. -/
def value (digits : Bytes) : Nat :=
  digits.foldl (fun n digit => 10 * n + (digit.toNat - 0x30)) 0

theorem value_map_digitByte (digits : List (Fin 10)) :
    value (digits.map digitByte) = extend 0 digits := by
  rw [value, List.foldl_map, extend]
  congr 1
  funext n digit
  rw [digitByte, toNat_digit digit.isLt, Nat.add_sub_cancel_left]

theorem isDigit_of_mem_number {b : UInt8} (member : b ∈ number s) : Ascii.isDigit b = true :=
  List.all_eq_true.mp List.all_takeWhile b member

/-- What is read is the value of the digits, unless that does not fit a machine word. -/
theorem leading_eq (s : Bytes) :
    leading s = if value (number s) < wordLimit then value (number s) else 0 := by
  obtain ⟨digits, same⟩ := exists_digits fun _ => isDigit_of_mem_number (s := s)
  rw [leading, ← number, same, value_map_digitByte, below?, foldlM_push? digits (by decide)]
  split <;> rfl

/-- More digits make a number larger, unless it is zero without them. -/
theorem value_lt_append {digits more : Bytes} (positive : value digits ≠ 0) (longer : more ≠ []) :
    value digits < value (digits ++ more) := by
  rw [value, value, List.foldl_append, ← value]
  generalize value digits = n at positive
  induction more generalizing n with
  | nil => exact absurd rfl longer
  | cons b more ih =>
    rw [List.foldl_cons]
    by_cases last : more = []
    · rw [last, List.foldl_nil]
      omega
    · exact Nat.lt_trans (by omega) (ih last (10 * n + (b.toNat - 0x30)) (by omega))

/-- Blanks and at most one plus sign. -/
def Leads (front : Bytes) : Prop :=
  ∃ (blanks : Bytes) (plus : Bool), front = blanks ++ (if plus then [0x2B] else []) ∧
    ∀ b ∈ blanks, Ascii.isSpace b = true

theorem exists_leads (s : Bytes) : ∃ front rest, s = front ++ (number s ++ rest) ∧ Leads front := by
  have blanks : s = s.takeWhile Ascii.isSpace ++ s.dropWhile Ascii.isSpace :=
    List.takeWhile_append_dropWhile.symm
  obtain ⟨plus, signed⟩ : ∃ plus : Bool, s.dropWhile Ascii.isSpace =
      (if plus then [0x2B] else []) ++ skipPlus (s.dropWhile Ascii.isSpace) := by
    cases s.dropWhile Ascii.isSpace with
    | nil => exact ⟨false, rfl⟩
    | cons b t =>
      by_cases sign : b = 0x2B
      · exact ⟨true, by rw [skipPlus, if_pos sign, sign]; rfl⟩
      · exact ⟨false, by rw [skipPlus, if_neg sign]; rfl⟩
  refine ⟨s.takeWhile Ascii.isSpace ++ (if plus then [0x2B] else []),
    (skipPlus (s.dropWhile Ascii.isSpace)).dropWhile Ascii.isDigit, ?_, ?_⟩
  · rw [number, List.takeWhile_append_dropWhile, List.append_assoc, ← signed, ← blanks]
  · exact ⟨_, plus, rfl, List.all_eq_true.mp List.all_takeWhile⟩

/-- The first digit behind blanks and a sign starts the number. -/
theorem number_of_leads (leads : Leads front) {b : UInt8} (digit : Ascii.isDigit b = true)
    (s : Bytes) : number (front ++ b :: s) = (b :: s).takeWhile Ascii.isDigit ∧
      lead (front ++ b :: s) = front.length := by
  obtain ⟨blanks, plus, rfl, spaces⟩ := leads
  obtain ⟨space, sign⟩ := visible_of_isDigit digit
  have unsigned : skipPlus ((blanks ++ (if plus then [0x2B] else []) ++ b :: s).dropWhile
      Ascii.isSpace) = b :: s := by
    rw [List.append_assoc, List.dropWhile_append_of_pos spaces]
    cases plus with
    | true => rfl
    | false =>
      rw [if_neg Bool.false_ne_true, List.nil_append,
        List.dropWhile_cons_of_neg (by rw [space]; exact Bool.false_ne_true), skipPlus, if_neg sign]
  rw [number, lead, unsigned, List.length_append, Nat.add_sub_cancel]
  exact ⟨rfl, rfl⟩

theorem leading_blanks (spaces : ∀ b ∈ front, Ascii.isSpace b = true) (s : Bytes) :
    leading (front ++ s) = leading s := by
  rw [leading, List.dropWhile_append_of_pos spaces, ← leading]

/-- A blank behind the first visible byte ends the number, whatever comes then. -/
theorem leading_blank {b : UInt8} (visible : ¬∀ a ∈ front, Ascii.isSpace a = true)
    (blank : Ascii.isSpace b = true) (s : Bytes) : leading (front ++ b :: s) = leading front := by
  have seen : front.dropWhile Ascii.isSpace ≠ [] := by
    intro skipped
    apply visible
    have whole := List.takeWhile_append_dropWhile (p := Ascii.isSpace) (l := front)
    rw [skipped, List.append_nil] at whole
    rw [← whole]
    exact List.all_eq_true.mp List.all_takeWhile
  obtain ⟨a, rest, behind⟩ := List.exists_cons_of_ne_nil seen
  have skipped : (front ++ b :: s).dropWhile Ascii.isSpace = a :: (rest ++ b :: s) := by
    rw [List.dropWhile_append, behind]
    rfl
  have unsigned : skipPlus (a :: (rest ++ b :: s)) = skipPlus (a :: rest) ++ b :: s := by
    rw [skipPlus, skipPlus]
    split <;> rfl
  have digit : Ascii.isDigit b = false := by
    rw [← Bool.not_eq_true]
    intro digit
    exact Bool.false_ne_true ((visible_of_isDigit digit).1.symm.trans blank)
  have stop : (b :: s).takeWhile Ascii.isDigit = [] := by
    rw [List.takeWhile_cons, digit]
    rfl
  rw [leading, leading, skipped, behind, unsigned, List.takeWhile_append, stop, List.append_nil]
  split
  · next all => rw [(List.takeWhile_prefix Ascii.isDigit).eq_of_length all]
  · rfl

theorem length_number_le (s : Bytes) : lead s + (number s).length ≤ s.length := by
  have spaces := (List.dropWhile_suffix (l := s) Ascii.isSpace).length_le
  have sign := length_skipPlus_le (s.dropWhile Ascii.isSpace)
  have digits := (List.takeWhile_prefix (l := skipPlus (s.dropWhile Ascii.isSpace))
    Ascii.isDigit).length_le
  rw [lead, number]
  omega

theorem number_of_blanks (spaces : ∀ b ∈ s, Ascii.isSpace b = true) : number s = [] := by
  have skipped : (s ++ []).dropWhile Ascii.isSpace = [] := List.dropWhile_append_of_pos spaces
  rw [List.append_nil] at skipped
  rw [number, skipped]
  rfl

end Numbers

end CoreLocator.Decimal
