import CoreLocator.Proofs.Json.Spelling

/-! Passing over a value that is spelled in full leaves exactly what stands behind it, whatever the
containers around it are. -/
namespace CoreLocator.Json

open Decimal (Digits digitByte isDigit_digitByte)

section Blanks

theorem isBlank_byte (blank : Blank) : isBlank blank.byte = true := by
  cases blank <;> rfl

theorem skipBlanks_gap (gap : Gap) (s : Bytes) : skipBlanks (gap.text ++ s) = skipBlanks s := by
  apply List.dropWhile_append_of_pos
  intro b member
  obtain ⟨blank, -, rfl⟩ := List.mem_map.mp member
  exact isBlank_byte blank

theorem skipBlanks_cons {b : UInt8} {s : Bytes} (visible : isBlank b = false) :
    skipBlanks (b :: s) = b :: s :=
  List.dropWhile_cons_of_neg (by simp [visible])

theorem skipBlanks_of_gap (gap : Gap) {b : UInt8} {s : Bytes} (visible : isBlank b = false) :
    skipBlanks (gap.text ++ b :: s) = b :: s := by
  rw [skipBlanks_gap, skipBlanks_cons visible]

end Blanks

section Strings
variable {s t : Bytes}

/-- The bytes that a string may hold outside escapes. -/
def InString (b : UInt8) : Prop := b ≠ 0x22 ∧ b ≠ 0x5C ∧ ¬ b < 0x20

theorem inString_of_le {n : Nat} (high : 0x80 ≤ n) (byte : n < 0x100) : InString (.ofNat n) := by
  have value : (UInt8.ofNat n).toNat = n := by
    rw [UInt8.toNat_ofNat']
    exact Nat.mod_eq_of_lt byte
  have other (a : UInt8) (low : a.toNat < 0x80) : UInt8.ofNat n ≠ a := by
    rintro rfl
    omega
  refine ⟨other _ (by decide), other _ (by decide), ?_⟩
  rw [UInt8.lt_iff_toNat_lt, value]
  simp
  omega

/-- No byte of an unescaped character ends a string or starts an escape. -/
theorem inString_of_mem_encode {c : Char} (unescaped : Unescaped c) {b : UInt8}
    (member : b ∈ String.utf8EncodeChar c) : InString b := by
  obtain ⟨visible, quote, backslash⟩ := unescaped
  have scalar : c.val.toNat < 0x110000 := by
    rcases c.valid with low | high
    · exact Nat.lt_trans low (by decide)
    · exact high.2
  unfold String.utf8EncodeChar at member
  dsimp only at member
  split at member
  · next ascii =>
    obtain rfl := List.mem_singleton.mp member
    have value : (UInt8.ofNat c.val.toNat).toNat = c.toNat := by
      rw [UInt8.toNat_ofNat']
      exact Nat.mod_eq_of_lt (by omega)
    have other (a : Char) (different : c ≠ a) (low : a.toNat < 0x80) :
        UInt8.ofNat c.val.toNat ≠ UInt8.ofNat a.toNat := by
      intro same
      apply different
      have same := congrArg UInt8.toNat same
      rw [value, UInt8.toNat_ofNat', Nat.mod_eq_of_lt (by omega)] at same
      exact Char.toNat_inj.mp same
    refine ⟨other '"' quote (by decide), other '\\' backslash (by decide), ?_⟩
    rw [UInt8.lt_iff_toNat_lt, value]
    simp
    exact visible
  · split at member
    · simp only [List.mem_cons, List.not_mem_nil, or_false] at member
      rcases member with rfl | rfl <;> exact inString_of_le (by omega) (by omega)
    split at member
    · simp only [List.mem_cons, List.not_mem_nil, or_false] at member
      rcases member with rfl | rfl | rfl <;> exact inString_of_le (by omega) (by omega)
    · simp only [List.mem_cons, List.not_mem_nil, or_false] at member
      rcases member with rfl | rfl | rfl | rfl <;> exact inString_of_le (by omega) (by omega)

theorem hexDigit?_byte (digit : HexDigit) : Ascii.hexDigit? digit.byte = some digit.value.val := by
  have all : ∀ (value : Fin 16) (upper : Bool),
      Ascii.hexDigit? (HexDigit.byte ⟨value, upper⟩) = some value.val := by
    decide
  exact all digit.value digit.upper

theorem hexWord_bytes (a b c d : HexDigit) (s : Bytes) :
    hexWord (a.byte :: b.byte :: c.byte :: d.byte :: s) =
      .ok (((a.value * 16 + b.value) * 16 + c.value) * 16 + d.value, s) := by
  simp only [hexWord, hexDigit?_byte]

theorem simpleEscape?_byte (letter : Letter) :
    ∃ decoded, simpleEscape? letter.byte = some decoded ∧
      String.utf8EncodeChar letter.char = [decoded] := by
  cases letter <;> exact ⟨_, rfl, by decide⟩

theorem letter_byte_ne (letter : Letter) : letter.byte ≠ 0x75 := by
  cases letter <;> decide

theorem skimString_escape (escape : skimEscape s = .ok t) :
    skimString (0x5C :: s) = skimString t := by
  rw [skimString, if_neg (by decide), if_pos rfl]
  split
  · next refused => simp [escape] at refused
  · next skipped => rw [Except.ok.inj (escape.symm.trans skipped)]

theorem skimString_inString {bytes : Bytes} (inside : ∀ b ∈ bytes, InString b) (s : Bytes) :
    skimString (bytes ++ s) = skimString s := by
  induction bytes with
  | nil => rfl
  | cons b bytes ih =>
    obtain ⟨quote, backslash, visible⟩ := inside b List.mem_cons_self
    rw [List.cons_append, skimString, if_neg quote, if_neg backslash, if_neg visible]
    apply ih
    intro b member
    exact inside b (List.mem_cons_of_mem _ member)

theorem skimString_piece (piece : Piece) (s : Bytes) :
    skimString (piece.text ++ s) = skimString s := by
  cases piece with
  | plain char unescaped =>
    apply skimString_inString
    intro b member
    exact inString_of_mem_encode unescaped member
  | letter letter =>
    apply skimString_escape
    obtain ⟨decoded, simple, -⟩ := simpleEscape?_byte letter
    change skimEscape (letter.byte :: s) = .ok s
    rw [skimEscape, if_neg (letter_byte_ne letter), if_pos (by rw [simple]; rfl)]
  | unit a b c d =>
    apply skimString_escape
    change skimEscape (0x75 :: a.byte :: b.byte :: c.byte :: d.byte :: s) = .ok s
    rw [skimEscape, if_pos rfl, hexWord_bytes]
    rfl

/-- A string ends at the first quote that does not belong to an escape. -/
theorem skimString_literal (literal : Literal) (s : Bytes) :
    skimString (literal.text ++ 0x22 :: s) = .ok s := by
  induction literal with
  | nil =>
    rw [Literal.text, List.flatMap_nil, List.nil_append, skimString, if_pos rfl]
  | cons piece literal ih =>
    rw [Literal.text, List.flatMap_cons, List.append_assoc, skimString_piece]
    exact ih

end Strings

section Numbers
variable {rest : Bytes}

/-- A number cannot go on with `rest`. -/
def NumberEnds (rest : Bytes) : Prop :=
  ∀ b ∈ rest.head?, Ascii.isDigit b = false ∧ b ≠ 0x2E ∧ b ≠ 0x65 ∧ b ≠ 0x45

theorem numberEnds_nil : NumberEnds [] := nofun

theorem numberEnds_gap (gap : Gap) (ends : NumberEnds rest) : NumberEnds (gap.text ++ rest) := by
  cases gap with
  | nil => exact ends
  | cons blank gap =>
    intro b first
    obtain rfl : blank.byte = b := Option.some.inj first
    cases blank <;> decide

theorem numberEnds_cons {b : UInt8} {s : Bytes}
    (stops : Ascii.isDigit b = false ∧ b ≠ 0x2E ∧ b ≠ 0x65 ∧ b ≠ 0x45) : NumberEnds (b :: s) := by
  intro c first
  obtain rfl : b = c := Option.some.inj first
  exact stops

theorem skimDigits_append {digits : Bytes} (inside : ∀ b ∈ digits, Ascii.isDigit b = true)
    (ends : ∀ b ∈ rest.head?, Ascii.isDigit b = false) : skimDigits (digits ++ rest) = rest := by
  rw [skimDigits, List.dropWhile_append_of_pos inside]
  cases rest with
  | nil => rfl
  | cons b rest => exact List.dropWhile_cons_of_neg (by simp [ends b rfl])

theorem skimDigits_more (digits : Digits) (ends : ∀ b ∈ rest.head?, Ascii.isDigit b = false) :
    skimDigits (digits.more.map digitByte ++ rest) = rest := by
  apply skimDigits_append _ ends
  intro b member
  obtain ⟨digit, -, rfl⟩ := List.mem_map.mp member
  exact isDigit_digitByte digit

theorem skimOptionalExponent_text (exponent : Option Exponent) (ends : NumberEnds rest) :
    skimOptionalExponent (exponentText exponent ++ rest) = .ok rest := by
  cases exponent with
  | none =>
    cases rest with
    | nil => rfl
    | cons b rest =>
      obtain ⟨-, -, lower, upper⟩ := ends b rfl
      simp [exponentText, skimOptionalExponent, lower, upper]
  | some exponent =>
    obtain ⟨upper, sign, digits⟩ := exponent
    have digit := isDigit_digitByte digits.first
    have unsigned : digitByte digits.first ≠ 0x2B ∧ digitByte digits.first ≠ 0x2D := by
      constructor <;> · intro same; rw [same] at digit; exact absurd digit (by decide)
    have skipped := skimDigits_more digits fun b first => (ends b first).1
    have exponent : skimExponent (signText sign ++ digits.text ++ rest) = .ok rest := by
      rcases sign with - | - | - <;>
        simp [signText, skimExponent, Digits.text, digit, unsigned, skipped]
    rw [exponentText, List.cons_append, skimOptionalExponent, if_pos (by cases upper <;> rfl)]
    exact exponent

/-- What stands behind the whole part of a number never starts with a digit. -/
theorem numberEnds_exponent (exponent : Option Exponent) (ends : NumberEnds rest) :
    ∀ b ∈ (exponentText exponent ++ rest).head?, Ascii.isDigit b = false ∧ b ≠ 0x2E := by
  intro b first
  cases exponent with
  | none =>
    obtain ⟨digit, point, -⟩ := ends b first
    exact ⟨digit, point⟩
  | some exponent =>
    obtain rfl := Option.some.inj first
    cases exponent.upper <;> decide

theorem isDigit_fraction (fraction : Option Digits) (exponent : Option Exponent)
    (ends : NumberEnds rest) :
    ∀ b ∈ (fractionText fraction ++ (exponentText exponent ++ rest)).head?,
      Ascii.isDigit b = false := by
  intro b first
  cases fraction with
  | none => exact (numberEnds_exponent exponent ends b first).1
  | some fraction =>
    obtain rfl := Option.some.inj first
    decide

theorem skimFraction_text (fraction : Option Digits) (exponent : Option Exponent)
    (ends : NumberEnds rest) :
    skimFraction (fractionText fraction ++ (exponentText exponent ++ rest)) = .ok rest := by
  have passed := skimOptionalExponent_text exponent ends
  have boundary := numberEnds_exponent exponent ends
  cases fraction with
  | none =>
    rw [fractionText, List.nil_append]
    generalize exponentText exponent ++ rest = s at passed boundary ⊢
    cases s with
    | nil => exact passed
    | cons b s => rw [skimFraction.eq_def, ← passed]; exact if_neg (boundary b rfl).2
  | some digits =>
    have skipped := skimDigits_more digits fun b first => (boundary b first).1
    simp only [fractionText, Digits.text, List.map_cons, List.cons_append, skimFraction, if_true,
      isDigit_digitByte, skipped, passed]

theorem skimNumber_text (whole : Nat) (fraction : Option Digits) (exponent : Option Exponent)
    (ends : NumberEnds rest) :
    skimNumber (Decimal.spell whole ++ (fractionText fraction ++ (exponentText exponent ++ rest))) =
      .ok rest := by
  have passed := skimFraction_text fraction exponent ends
  have boundary := isDigit_fraction fraction exponent ends
  by_cases zero : whole = 0
  · rw [zero, Decimal.spell_of_lt (by decide)]
    generalize fractionText fraction ++ (exponentText exponent ++ rest) = s at passed boundary ⊢
    cases s with
    | nil => exact passed
    | cons b s =>
      change skimNumber (0x30 :: b :: s) = .ok rest
      rw [skimNumber.eq_def]
      dsimp only
      rw [if_pos rfl, if_neg (by simp [boundary b rfl]), passed]
  · obtain ⟨first, digits, spelled⟩ := List.exists_cons_of_ne_nil (Decimal.spell_ne_nil whole)
    have inside (b : UInt8) (member : b ∈ first :: digits) : Ascii.isDigit b = true :=
      Decimal.isDigit_of_mem_spell (spelled ▸ member)
    have nonzero : first ≠ 0x30 := Decimal.head_spell_ne zero first (by rw [spelled]; rfl)
    have inside' (b : UInt8) (member : b ∈ digits) : Ascii.isDigit b = true :=
      inside b (List.mem_cons_of_mem _ member)
    rw [spelled, List.cons_append, skimNumber.eq_def]
    dsimp only
    rw [if_neg nonzero, if_pos (inside first List.mem_cons_self),
      skimDigits_append inside' boundary, passed]

end Numbers

section Values
variable {rest : Bytes}

theorem skimWord_append (word rest : Bytes) : skimWord word (word ++ rest) = .ok rest := by
  induction word with
  | nil => rfl
  | cons letter word ih => rw [List.cons_append, skimWord, if_pos rfl, ih]

/-- A byte that a value may start with: neither a blank nor the end of a list. -/
def StartsValue (b : UInt8) : Prop := isBlank b = false ∧ b ≠ 0x5D

instance (b : UInt8) : Decidable (StartsValue b) := inferInstanceAs (Decidable (_ ∧ _))

theorem ne_of_isDigit {a b : UInt8} (digit : Ascii.isDigit b = true)
    (other : Ascii.isDigit a = false) : b ≠ a := by
  rintro rfl
  rw [digit] at other
  contradiction

theorem startsValue_of_isDigit {b : UInt8} (digit : Ascii.isDigit b = true) : StartsValue b := by
  have unequal (a : UInt8) (other : Ascii.isDigit a = false) : (b == a) = false :=
    beq_eq_false_iff_ne.mpr (ne_of_isDigit digit other)
  refine ⟨?_, ne_of_isDigit digit rfl⟩
  rw [isBlank, unequal 0x20 rfl, unequal 0x0A rfl, unequal 0x09 rfl, unequal 0x0D rfl]
  rfl

/-- A text that is passed over as one value without items. -/
structure Scalar (bytes : Bytes) : Prop where
  starts : ∃ b s, bytes = b :: s ∧ StartsValue b ∧ Container.opened? b = none
  skims : ∀ rest, NumberEnds rest → skimScalar (bytes ++ rest) = .ok rest

theorem scalar_word {b : UInt8} {word : Bytes} (starts : StartsValue b)
    (closed : Container.opened? b = none)
    (skims : ∀ rest, skimScalar (b :: (word ++ rest)) = skimWord word (word ++ rest)) :
    Scalar (b :: word) := by
  constructor
  · exact ⟨b, word, rfl, starts, closed⟩
  · intro rest _
    exact (skims rest).trans (skimWord_append word rest)

theorem scalar_null : Scalar Spelling.null.bytes :=
  scalar_word (by decide) rfl fun _ => rfl

theorem scalar_bool (value : Bool) : Scalar (Spelling.bool value).bytes := by
  cases value with
  | true => exact scalar_word (by decide) rfl fun _ => rfl
  | false => exact scalar_word (by decide) rfl fun _ => rfl

theorem scalar_quoted (literal : Literal) : Scalar (quoted literal) := by
  constructor
  · exact ⟨_, _, rfl, by decide, rfl⟩
  · intro rest _
    rw [quoted, List.cons_append, List.append_assoc, skimScalar, if_pos rfl]
    exact skimString_literal literal rest

theorem head_numeral (numeral : Numeral) :
    ∃ b s, numeral.text = b :: s ∧ (b = 0x2D ∨ Ascii.isDigit b = true) := by
  obtain ⟨negative, whole, fraction, exponent⟩ := numeral
  cases negative with
  | true => exact ⟨_, _, rfl, .inl rfl⟩
  | false =>
    obtain ⟨first, digits, spelled, digit⟩ := Decimal.head_spell whole
    refine ⟨first, digits ++ fractionText fraction ++ exponentText exponent, ?_, .inr digit⟩
    simp only [Numeral.text, spelled, Bool.false_eq_true, if_false, List.nil_append,
      List.cons_append]

theorem scalar_numeral (numeral : Numeral) : Scalar numeral.text := by
  constructor
  · obtain ⟨b, s, same, head⟩ := head_numeral numeral
    refine ⟨b, s, same, ?_⟩
    rcases head with rfl | digit
    · exact ⟨by decide, rfl⟩
    · refine ⟨startsValue_of_isDigit digit, ?_⟩
      rw [Container.opened?, if_neg (ne_of_isDigit digit rfl), if_neg (ne_of_isDigit digit rfl)]
  · intro rest ends
    obtain ⟨negative, whole, fraction, exponent⟩ := numeral
    have passed := skimNumber_text whole fraction exponent ends
    cases negative with
    | true =>
      simp only [Numeral.text, if_true, List.append_assoc]
      rw [List.singleton_append, skimScalar, if_neg (by decide), if_neg (by decide), if_neg (by decide),
        if_neg (by decide), if_pos rfl, passed]
    | false =>
      obtain ⟨first, digits, spelled, digit⟩ := Decimal.head_spell whole
      have other {a : UInt8} := ne_of_isDigit (a := a) digit
      simp only [Numeral.text, Bool.false_eq_true, if_false, List.nil_append, List.append_assoc]
      rw [spelled, List.cons_append] at passed ⊢
      rw [skimScalar, if_neg (other rfl), if_neg (other rfl), if_neg (other rfl),
        if_neg (other rfl), if_neg (other rfl), if_pos digit, passed]

theorem skimValue_gap (around : List Container) (gap : Gap) (s : Bytes) :
    skimValue around (gap.text ++ s) = skimValue around s := by
  rw [skimValue.eq_def, skimValue.eq_def, skipBlanks_gap]

theorem skimKey_gap (gap : Gap) (s : Bytes) : skimKey (gap.text ++ s) = skimKey s := by
  rw [skimKey, skimKey, skipBlanks_gap]

theorem skimItem_gap (c : Container) (around : List Container) (gap : Gap) (s : Bytes) :
    skimItem c around (gap.text ++ s) = skimItem c around s := by
  cases c with
  | list => rw [skimItem, skimItem, skimValue_gap]
  | object => rw [skimItem, skimItem, skimKey_gap]

theorem skimFirst_gap (c : Container) (around : List Container) (gap : Gap) (s : Bytes) :
    skimFirst c around (gap.text ++ s) = skimFirst c around s := by
  rw [skimFirst.eq_def, skimFirst.eq_def, skipBlanks_gap]

theorem skimAfter_gap (c : Container) (outer : List Container) (gap : Gap) (s : Bytes) :
    skimAfter (c :: outer) (gap.text ++ s) = skimAfter (c :: outer) s := by
  rw [skimAfter.eq_def, skimAfter.eq_def (c :: outer) s]
  dsimp only
  rw [skipBlanks_gap]

theorem skimColon_text (gap : Gap) (s : Bytes) : skimColon (gap.text ++ 0x3A :: s) = .ok s := by
  rw [skimColon, skipBlanks_of_gap gap (by rfl)]
  rfl

theorem skimKey_label (key : Literal) (beforeColon afterColon : Gap) (s : Bytes) :
    skimKey (label key beforeColon afterColon ++ s) = .ok (afterColon.text ++ s) := by
  have passed := skimString_literal key
  simp only [label, quoted, List.append_assoc, List.cons_append, List.nil_append]
  rw [skimKey, skipBlanks_cons (by rfl)]
  dsimp only
  rw [if_pos rfl, passed]
  exact skimColon_text beforeColon _

theorem skimValue_scalar {bytes : Bytes} (around : List Container) (scalar : Scalar bytes)
    (ends : NumberEnds rest) : skimValue around (bytes ++ rest) = skimAfter around rest := by
  obtain ⟨b, s, rfl, starts, closed⟩ := scalar.starts
  have skipped := scalar.skims rest ends
  rw [List.cons_append] at skipped ⊢
  rw [skimValue.eq_def, skipBlanks_cons starts.1]
  dsimp only
  rw [closed]
  dsimp only
  rw [skipped]

theorem skimValue_opened (c : Container) (around : List Container) {b : UInt8} {s : Bytes}
    (visible : isBlank b = false) (opens : Container.opened? b = some c) :
    skimValue around (b :: s) = skimFirst c around s := by
  rw [skimValue.eq_def, skipBlanks_cons visible]
  dsimp only
  rw [opens]

theorem starts_bytes (value : Spelling) : ∃ b s, value.bytes = b :: s ∧ StartsValue b := by
  cases value with
  | null => exact ⟨_, _, rfl, by decide⟩
  | bool value => cases value <;> exact ⟨_, _, rfl, by decide⟩
  | number numeral =>
    obtain ⟨b, s, same, starts, -⟩ := (scalar_numeral numeral).starts
    exact ⟨b, s, same, starts⟩
  | text literal => exact ⟨_, _, rfl, by decide⟩
  | list inner items => exact ⟨_, _, rfl, by decide⟩
  | object inner members => exact ⟨_, _, rfl, by decide⟩

theorem numberEnds_items (items : List Item) (rest : Bytes) :
    NumberEnds (itemsBytes false items ++ 0x5D :: rest) := by
  cases items with
  | nil => exact numberEnds_cons (b := 0x5D) (by decide)
  | cons item items =>
    obtain ⟨before, value, after⟩ := item
    exact numberEnds_cons (b := 0x2C) (by decide)

theorem numberEnds_members (members : List Member) (rest : Bytes) :
    NumberEnds (membersBytes false members ++ 0x7D :: rest) := by
  cases members with
  | nil => exact numberEnds_cons (b := 0x7D) (by decide)
  | cons member members =>
    obtain ⟨before, key, beforeColon, afterColon, value, after⟩ := member
    exact numberEnds_cons (b := 0x2C) (by decide)

theorem skimFirst_closer (c : Container) (around : List Container) (rest : Bytes) :
    skimFirst c around (c.closer :: rest) = skimAfter around rest := by
  have visible : isBlank c.closer = false := by cases c <;> rfl
  rw [skimFirst.eq_def, skipBlanks_cons visible]
  exact if_pos rfl

theorem skimFirst_item (c : Container) (around : List Container) {b : UInt8} {s : Bytes}
    (visible : isBlank b = false) (more : b ≠ c.closer) :
    skimFirst c around (b :: s) = skimItem c around (b :: s) := by
  rw [skimFirst.eq_def, skipBlanks_cons visible]
  exact if_neg more

theorem skimAfter_closer (c : Container) (outer : List Container) (rest : Bytes) :
    skimAfter (c :: outer) (c.closer :: rest) = skimAfter outer rest := by
  have visible : isBlank c.closer = false := by cases c <;> rfl
  have ends : c.closer ≠ 0x2C := by cases c <;> decide
  rw [skimAfter.eq_def]
  dsimp only
  rw [skipBlanks_cons visible]
  dsimp only
  rw [if_neg ends, if_pos rfl]

theorem skimAfter_comma (c : Container) (outer : List Container) (s : Bytes) :
    skimAfter (c :: outer) (0x2C :: s) = skimItem c outer s := by
  rw [skimAfter.eq_def]
  dsimp only
  rw [skipBlanks_cons (by rfl)]
  exact if_pos rfl

mutual

/-- A value is passed over to its last byte. -/
theorem skimValue_bytes (around : List Container) {rest : Bytes} (ends : NumberEnds rest)
    (value : Spelling) : skimValue around (value.bytes ++ rest) = skimAfter around rest := by
  cases value with
  | null => exact skimValue_scalar around scalar_null ends
  | bool value => exact skimValue_scalar around (scalar_bool value) ends
  | number numeral => exact skimValue_scalar around (scalar_numeral numeral) ends
  | text literal => exact skimValue_scalar around (scalar_quoted literal) ends
  | list inner items =>
    have passed := (skim_items around rest items).1
    rw [Spelling.bytes, List.cons_append, skimValue_opened .list around rfl rfl, List.append_assoc,
      List.append_assoc, skimFirst_gap]
    exact passed
  | object inner members =>
    have passed := (skim_members around rest members).1
    rw [Spelling.bytes, List.cons_append, skimValue_opened .object around rfl rfl,
      List.append_assoc, List.append_assoc, skimFirst_gap]
    exact passed

/-- The items of a list are passed over to its end, where the first is still to come and where one
was passed already. -/
theorem skim_items (around : List Container) (rest : Bytes) (items : List Item) :
    skimFirst .list around (itemsBytes true items ++ 0x5D :: rest) = skimAfter around rest ∧
    skimAfter (.list :: around) (itemsBytes false items ++ 0x5D :: rest) =
      skimAfter around rest := by
  cases items with
  | nil =>
    constructor
    · exact skimFirst_closer .list around rest
    · exact skimAfter_closer .list around rest
  | cons item items =>
    obtain ⟨before, value, after⟩ := item
    have ends := numberEnds_gap after (numberEnds_items items rest)
    have passed := skimValue_bytes (.list :: around) ends value
    rw [skimAfter_gap, (skim_items around rest items).2] at passed
    simp only [itemsBytes, List.append_assoc]
    constructor
    · change skimFirst .list around (before.text ++ _) = _
      obtain ⟨b, s, same, visible, more⟩ := starts_bytes value
      rw [skimFirst_gap]
      rw [same] at passed ⊢
      rw [List.cons_append, skimFirst_item .list _ visible more, skimItem]
      exact passed
    · change skimAfter (.list :: around) (0x2C :: (before.text ++ _)) = _
      rw [skimAfter_comma, skimItem, skimValue_gap]
      exact passed

/-- The members of an object are passed over to its end. -/
theorem skim_members (around : List Container) (rest : Bytes) (members : List Member) :
    skimFirst .object around (membersBytes true members ++ 0x7D :: rest) = skimAfter around rest ∧
    skimAfter (.object :: around) (membersBytes false members ++ 0x7D :: rest) =
      skimAfter around rest := by
  cases members with
  | nil =>
    constructor
    · exact skimFirst_closer .object around rest
    · exact skimAfter_closer .object around rest
  | cons member members =>
    obtain ⟨before, key, beforeColon, afterColon, value, after⟩ := member
    have ends := numberEnds_gap after (numberEnds_members members rest)
    have passed := skimValue_bytes (.object :: around) ends value
    rw [skimAfter_gap, (skim_members around rest members).2] at passed
    simp only [membersBytes, List.append_assoc]
    have item : skimItem .object around (label key beforeColon afterColon ++ (value.bytes ++
        (after.text ++ (membersBytes false members ++ 0x7D :: rest)))) = skimAfter around rest := by
      rw [skimItem, skimKey_label]
      dsimp only
      rw [skimValue_gap]
      exact passed
    constructor
    · change skimFirst .object around (before.text ++ (0x22 :: _)) = _
      rw [skimFirst_gap, skimFirst_item _ _ (by rfl) (by decide)]
      exact item
    · change skimAfter (.object :: around) (0x2C :: (before.text ++ _)) = _
      rw [skimAfter_comma, skimItem_gap]
      exact item

end

theorem skim_gap (gap : Gap) (s : Bytes) : skim (gap.text ++ s) = skim s :=
  skimValue_gap [] gap s

theorem skim_bytes (value : Spelling) (ends : NumberEnds rest) :
    skim (value.bytes ++ rest) = .ok rest := by
  rw [skim, skimValue_bytes [] ends, skimAfter]

/-- Every text that the grammar builds is accepted, also with keys that denote no string. -/
theorem check_source (source : Source) : check source.text = .ok () := by
  obtain ⟨before, value, after⟩ := source
  have passed : skim (value.bytes ++ after.text) = .ok after.text := by
    apply skim_bytes
    have ends := numberEnds_gap after numberEnds_nil
    rw [List.append_nil] at ends
    exact ends
  have blank : skipBlanks after.text = [] := by
    have skipped := skipBlanks_gap after []
    rw [List.append_nil] at skipped
    exact skipped
  rw [check, Source.text, List.append_assoc, skim_gap, passed]
  dsimp only
  rw [checkEnd, blank]

end Values

end CoreLocator.Json
