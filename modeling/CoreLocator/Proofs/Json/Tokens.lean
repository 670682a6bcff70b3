import Mathlib.Data.List.Induction
import Mathlib.Data.List.TakeWhile
import CoreLocator.Proofs.Json.Skim
import CoreLocator.Proofs.Utf8

/-! What the readers of tokens pass over. Each that leaves some of a text has passed over something
that is spelled in full: white space, a literal, a number, a word or a key. Only the characters of
strings need more, that the text is UTF-8, as all that is spelled is. -/
namespace CoreLocator.Json

open Decimal (Digits digitByte)
open Utf8 (IsText)

variable {s t : Bytes}

section Texts

theorem isText_gap (gap : Gap) : IsText gap.text := by
  apply Utf8.isText_ascii
  intro b member
  obtain ⟨blank, -, rfl⟩ := List.mem_map.mp member
  cases blank <;> decide

theorem toNat_hexDigit (digit : HexDigit) : digit.byte.toNat < 0x80 := by
  have all : ∀ (value : Fin 16) (upper : Bool), (HexDigit.byte ⟨value, upper⟩).toNat < 0x80 := by
    decide +kernel
  exact all digit.value digit.upper

theorem isText_piece (piece : Piece) : IsText piece.text := by
  cases piece with
  | plain char unescaped => exact Utf8.isText_encodeChar char
  | letter letter =>
    apply Utf8.isText_ascii
    cases letter <;> decide +kernel
  | unit a b c d =>
    apply Utf8.isText_ascii
    intro byte member
    simp only [Piece.text, List.mem_cons, List.not_mem_nil, or_false] at member
    rcases member with rfl | rfl | rfl | rfl | rfl | rfl
    · decide
    · decide
    · exact toNat_hexDigit a
    · exact toNat_hexDigit b
    · exact toNat_hexDigit c
    · exact toNat_hexDigit d

theorem isText_literal (literal : Literal) : IsText literal.text := by
  induction literal with
  | nil => exact ⟨[], rfl⟩
  | cons piece literal ih =>
    rw [Literal.text, List.flatMap_cons]
    exact (isText_piece piece).append ih

/-- A mark between tokens. -/
theorem isText_mark {b : UInt8} (small : b.toNat < 0x80) : IsText [b] := by
  apply Utf8.isText_ascii
  rintro c member
  obtain rfl := List.mem_singleton.mp member
  exact small

theorem isText_quoted (literal : Literal) : IsText (quoted literal) := by
  have quote : IsText [0x22] := isText_mark (by decide)
  exact quote.append ((isText_literal literal).append quote)

theorem toNat_of_isDigit {b : UInt8} (digit : Ascii.isDigit b = true) : b.toNat < 0x80 := by
  have range : 0x30 ≤ b.toNat ∧ b.toNat ≤ 0x39 := by
    simpa [Ascii.isDigit, UInt8.le_iff_toNat_le] using digit
  omega

theorem isText_digits (digits : Digits) : IsText digits.text := by
  apply Utf8.isText_ascii
  intro b member
  exact toNat_of_isDigit (Decimal.isDigit_of_mem_text member)

theorem isText_numeral (numeral : Numeral) : IsText numeral.text := by
  obtain ⟨negative, whole, fraction, exponent⟩ := numeral
  have sign : IsText (if negative then [0x2D] else []) := by
    cases negative
    · exact ⟨[], rfl⟩
    · exact isText_mark (by decide)
  have spelled : IsText (Decimal.spell whole) := by
    apply Utf8.isText_ascii
    intro b member
    exact toNat_of_isDigit (Decimal.isDigit_of_mem_spell member)
  have fractional : IsText (fractionText fraction) := by
    cases fraction with
    | none => exact ⟨[], rfl⟩
    | some digits => exact (isText_mark (b := 0x2E) (by decide)).append (isText_digits digits)
  have exponential : IsText (exponentText exponent) := by
    cases exponent with
    | none => exact ⟨[], rfl⟩
    | some exponent =>
      obtain ⟨upper, sign, digits⟩ := exponent
      have mark : IsText [if upper then 0x45 else 0x65] := isText_mark (by cases upper <;> decide)
      have signed : IsText (signText sign) := by
        rcases sign with - | - | -
        · exact ⟨[], rfl⟩
        · exact isText_mark (by decide)
        · exact isText_mark (by decide)
      exact mark.append (signed.append (isText_digits digits))
  exact ((sign.append spelled).append fractional).append exponential

theorem isText_separator (first : Bool) : IsText (separator first) := by
  cases first
  · exact isText_mark (by decide)
  · exact ⟨[], rfl⟩

theorem isText_label (key : Literal) (beforeColon afterColon : Gap) :
    IsText (label key beforeColon afterColon) :=
  (((isText_quoted key).append (isText_gap beforeColon)).append
    (isText_mark (by decide))).append (isText_gap afterColon)

mutual

/-- What the grammar builds is UTF-8. -/
theorem isText_bytes (value : Spelling) : IsText value.bytes := by
  cases value with
  | null => exact Utf8.isText_ascii (by decide +kernel)
  | bool value => cases value <;> exact Utf8.isText_ascii (by decide +kernel)
  | number numeral => exact isText_numeral numeral
  | text literal => exact isText_quoted literal
  | list inner items =>
    have opening : IsText [0x5B] := isText_mark (by decide)
    have closing : IsText [0x5D] := isText_mark (by decide)
    exact opening.append (((isText_gap inner).append (isText_items true items)).append closing)
  | object inner members =>
    have opening : IsText [0x7B] := isText_mark (by decide)
    have closing : IsText [0x7D] := isText_mark (by decide)
    exact opening.append (((isText_gap inner).append (isText_members true members)).append closing)

theorem isText_items (first : Bool) (items : List Item) : IsText (itemsBytes first items) := by
  cases items with
  | nil => exact ⟨[], rfl⟩
  | cons item items =>
    obtain ⟨before, value, after⟩ := item
    rw [itemsBytes]
    exact ((((isText_separator first).append (isText_gap before)).append
      (isText_bytes value)).append (isText_gap after)).append (isText_items false items)

theorem isText_members (first : Bool) (members : List Member) :
    IsText (membersBytes first members) := by
  cases members with
  | nil => exact ⟨[], rfl⟩
  | cons member members =>
    obtain ⟨before, key, beforeColon, afterColon, value, after⟩ := member
    rw [membersBytes]
    exact (((((isText_separator first).append (isText_gap before)).append
      (isText_label key beforeColon afterColon)).append (isText_bytes value)).append
        (isText_gap after)).append (isText_members false members)

end

theorem isText_source (source : Source) : IsText source.text :=
  ((isText_gap source.before).append (isText_bytes source.value)).append (isText_gap source.after)

end Texts

section Strings

theorem exists_blank {b : UInt8} (blank : isBlank b = true) : ∃ mark : Blank, mark.byte = b := by
  simp only [isBlank, Bool.or_eq_true, beq_iff_eq] at blank
  rcases blank with ((rfl | rfl) | rfl) | rfl
  · exact ⟨.space, rfl⟩
  · exact ⟨.lineFeed, rfl⟩
  · exact ⟨.tab, rfl⟩
  · exact ⟨.carriageReturn, rfl⟩

theorem exists_gap (s : Bytes) : ∃ gap : Gap, s = gap.text ++ skipBlanks s := by
  induction s with
  | nil => exact ⟨[], rfl⟩
  | cons b s ih =>
    by_cases blank : isBlank b = true
    · obtain ⟨gap, same⟩ := ih
      obtain ⟨mark, rfl⟩ := exists_blank blank
      refine ⟨mark :: gap, ?_⟩
      rw [skipBlanks, List.dropWhile_cons_of_pos blank, ← skipBlanks]
      exact congrArg (mark.byte :: ·) same
    · refine ⟨[], ?_⟩
      rw [skipBlanks, List.dropWhile_cons_of_neg blank]
      rfl

theorem gap_of_skipBlanks (skipped : skipBlanks s = t) : ∃ gap : Gap, s = gap.text ++ t := by
  obtain ⟨gap, same⟩ := exists_gap s
  exact ⟨gap, skipped ▸ same⟩

theorem exists_hexDigit {b : UInt8} {n : Nat} (digit : Ascii.hexDigit? b = some n) :
    ∃ digit : HexDigit, digit.byte = b := by
  have byte {n : Nat} (same : n = b.toNat) : UInt8.ofNat n = b := by rw [same, UInt8.ofNat_toNat]
  simp only [Ascii.hexDigit?, Ascii.isDigit, Bool.and_eq_true, decide_eq_true_eq,
    UInt8.le_iff_toNat_le, UInt8.reduceToNat] at digit
  split at digit
  · next range =>
    refine ⟨⟨⟨b.toNat - 0x30, by omega⟩, false⟩, byte ?_⟩
    simp only [if_pos (show b.toNat - 0x30 < 10 by omega)]
    omega
  split at digit
  · next range =>
    refine ⟨⟨⟨b.toNat - 0x41 + 10, by omega⟩, true⟩, byte ?_⟩
    simp only [if_neg (show ¬b.toNat - 0x41 + 10 < 10 by omega), if_true]
    omega
  split at digit
  · next range =>
    refine ⟨⟨⟨b.toNat - 0x61 + 10, by omega⟩, false⟩, byte ?_⟩
    simp only [if_neg (show ¬b.toNat - 0x61 + 10 < 10 by omega), Bool.false_eq_true, if_false]
    omega
  · contradiction

theorem exists_hexWord {n : Nat} (read : hexWord s = .ok (n, t)) : ∃ a b c d : HexDigit,
    s = a.byte :: b.byte :: c.byte :: d.byte :: t := by
  unfold hexWord at read
  split at read
  · split at read
    · next a b c d u _ _ _ _ first second third fourth =>
      obtain ⟨a, rfl⟩ := exists_hexDigit first
      obtain ⟨b, rfl⟩ := exists_hexDigit second
      obtain ⟨c, rfl⟩ := exists_hexDigit third
      obtain ⟨d, rfl⟩ := exists_hexDigit fourth
      obtain ⟨-, rfl⟩ := Prod.mk.inj (Except.ok.inj read)
      exact ⟨a, b, c, d, rfl⟩
    · contradiction
  · contradiction

theorem exists_letter {b : UInt8} (simple : (simpleEscape? b).isSome) :
    ∃ letter : Letter, letter.byte = b := by
  unfold simpleEscape? at simple
  split at simple
  · next self =>
    simp only [Bool.or_eq_true, decide_eq_true_eq] at self
    rcases self with (rfl | rfl) | rfl
    · exact ⟨.quote, rfl⟩
    · exact ⟨.backslash, rfl⟩
    · exact ⟨.slash, rfl⟩
  split at simple
  · next same => exact ⟨.backspace, same.symm⟩
  split at simple
  · next same => exact ⟨.formFeed, same.symm⟩
  split at simple
  · next same => exact ⟨.lineFeed, same.symm⟩
  split at simple
  · next same => exact ⟨.carriageReturn, same.symm⟩
  split at simple
  · next same => exact ⟨.tab, same.symm⟩
  · contradiction

/-- An escape that is passed over is a letter's or one of a code unit. -/
theorem exists_escape (passed : skimEscape s = .ok t) :
    ∃ piece : Piece, 0x5C :: s = piece.text ++ t := by
  unfold skimEscape at passed
  split at passed
  · contradiction
  · next b s =>
    split at passed
    · next unicode =>
      cases word : hexWord s with
      | error fault => rw [word] at passed; contradiction
      | ok read =>
        obtain ⟨n, u⟩ := read
        rw [word] at passed
        obtain rfl : u = t := Except.ok.inj passed
        obtain ⟨a, b', c, d, rfl⟩ := exists_hexWord word
        exact ⟨.unit a b' c d, by rw [unicode]; rfl⟩
    · split at passed
      · next simple =>
        obtain ⟨letter, rfl⟩ := exists_letter simple
        obtain rfl := Except.ok.inj passed
        exact ⟨.letter letter, rfl⟩
      · contradiction

/-- The first byte of a character that needs an escape is the character itself. -/
theorem unescaped_of_head {char : Char} {b : UInt8}
    (same : b :: s = String.utf8EncodeChar char ++ t) (inside : InString b) : Unescaped char := by
  obtain ⟨quote, backslash, visible⟩ := inside
  by_cases small : char.toNat < 0x80
  · have alone := Utf8.encodeChar_one small
    rw [Char.ofNat_toNat] at alone
    rw [alone] at same
    obtain ⟨rfl, -⟩ := List.cons.inj same
    have value : (UInt8.ofNat char.toNat).toNat = char.toNat := Utf8.toNat_byte (by omega)
    refine ⟨?_, ?_, ?_⟩
    · rw [UInt8.lt_iff_toNat_lt, value] at visible
      exact Nat.le_of_not_lt visible
    · rintro rfl
      exact quote rfl
    · rintro rfl
      exact backslash rfl
  · refine ⟨by omega, ?_, ?_⟩
    · rintro rfl
      exact small (by decide)
    · rintro rfl
      exact small (by decide)

/-- A string that is passed over is spelled piece by piece, its characters whole. -/
theorem exists_literal (text : IsText s) (passed : skimString s = .ok t) :
    ∃ literal : Literal, s = literal.text ++ 0x22 :: t := by
  induction size : s.length using Nat.strongRecOn generalizing s with
  | ind n ih =>
    cases s with
    | nil => rw [skimString] at passed; contradiction
    | cons b s =>
      by_cases quote : b = 0x22
      · rw [skimString, if_pos quote] at passed
        obtain rfl := Except.ok.inj passed
        exact ⟨[], by rw [quote]; rfl⟩
      by_cases backslash : b = 0x5C
      · obtain ⟨u, escape⟩ : ∃ u, skimEscape s = .ok u := by
          rw [skimString, if_neg quote, if_pos backslash] at passed
          split at passed
          · contradiction
          · next u skipped => exact ⟨u, skipped⟩
        obtain ⟨piece, same⟩ := exists_escape escape
        have shorter := length_of_skimEscape escape
        rw [List.length_cons] at size
        rw [backslash, skimString_escape escape] at passed
        rw [backslash, same] at text ⊢
        obtain ⟨literal, rfl⟩ :=
          ih u.length (by omega) ((isText_piece piece).of_append text) passed rfl
        exact ⟨piece :: literal, (List.append_assoc _ _ _).symm⟩
      · -- Any other character stands for itself, and all its bytes are passed over with it.
        have visible : ¬ b < 0x20 := by
          intro control
          rw [skimString, if_neg quote, if_neg backslash, if_pos control] at passed
          contradiction
        obtain ⟨char, u, same, text⟩ := text.exists_cons
        have unescaped := unescaped_of_head same ⟨quote, backslash, visible⟩
        have shorter : 0 < (String.utf8EncodeChar char).length := by
          rw [String.length_utf8EncodeChar]
          exact char.utf8Size_pos
        rw [same, List.length_append] at size
        rw [same] at passed ⊢
        obtain ⟨literal, rfl⟩ := ih u.length (by omega) text
          ((skimString_piece (.plain char unescaped) u).symm.trans passed) rfl
        exact ⟨.plain char unescaped :: literal, (List.append_assoc _ _ _).symm⟩

end Strings

section Numbers

theorem exists_more (s : Bytes) :
    ∃ more : List (Fin 10), s = more.map digitByte ++ skimDigits s := by
  have parted : s.takeWhile Ascii.isDigit ++ skimDigits s = s := List.takeWhile_append_dropWhile
  have inside (b : UInt8) (member : b ∈ s.takeWhile Ascii.isDigit) : Ascii.isDigit b = true :=
    List.mem_takeWhile_imp member
  obtain ⟨more, same⟩ := Decimal.exists_digits inside
  exact ⟨more, by rw [← same, parted]⟩

theorem exists_digits {b : UInt8} (digit : Ascii.isDigit b = true) (s : Bytes) :
    ∃ digits : Digits, b :: s = digits.text ++ skimDigits s := by
  obtain ⟨more, same⟩ := exists_more s
  have inside (c : UInt8) (member : c ∈ [b]) : Ascii.isDigit c = true := by
    obtain rfl := List.mem_singleton.mp member
    exact digit
  obtain ⟨first, spelled⟩ := Decimal.exists_digits inside
  cases first with
  | nil => contradiction
  | cons first others =>
    obtain ⟨rfl, -⟩ := List.cons.inj spelled
    exact ⟨⟨first, more⟩, congrArg (digitByte first :: ·) same⟩

/-- The digits of an exponent, behind its sign. -/
def skimUnsigned : Bytes → Skimmed
  | [] => .error (.before [] .invalidNumber)
  | b :: t => if Ascii.isDigit b then .ok (skimDigits t) else .error (.before t .invalidNumber)

theorem exists_sign (s : Bytes) : ∃ sign unsigned,
    s = signText sign ++ unsigned ∧ skimExponent s = skimUnsigned unsigned := by
  cases s with
  | nil => exact ⟨none, [], rfl, rfl⟩
  | cons b s =>
    by_cases plus : b = 0x2B
    · exact ⟨some false, s, by rw [plus]; rfl, by rw [plus]; rfl⟩
    by_cases minus : b = 0x2D
    · exact ⟨some true, s, by rw [minus]; rfl, by rw [minus]; rfl⟩
    · exact ⟨none, b :: s, rfl, by simp [skimExponent, skimUnsigned, plus, minus]⟩

theorem exists_exponent {b : UInt8} (letter : b = 0x65 ∨ b = 0x45)
    (passed : skimExponent s = .ok t) : ∃ exponent, b :: s = exponentText (some exponent) ++ t := by
  obtain ⟨sign, unsigned, same, rest⟩ := exists_sign s
  rw [rest] at passed
  cases unsigned with
  | nil => contradiction
  | cons c u =>
    rw [skimUnsigned] at passed
    split at passed
    · next digit =>
      obtain ⟨digits, spelled⟩ := exists_digits digit u
      obtain rfl := Except.ok.inj passed
      refine ⟨⟨b = 0x45, sign, digits⟩, ?_⟩
      rw [same, spelled, exponentText, List.cons_append, List.append_assoc]
      rcases letter with rfl | rfl <;> rfl
    · contradiction

theorem exists_optionalExponent (passed : skimOptionalExponent s = .ok t) :
    ∃ exponent, s = exponentText exponent ++ t := by
  unfold skimOptionalExponent at passed
  split at passed
  · obtain rfl := Except.ok.inj passed
    exact ⟨none, rfl⟩
  · split at passed
    · next letter =>
      simp only [Bool.or_eq_true, decide_eq_true_eq] at letter
      obtain ⟨exponent, same⟩ := exists_exponent letter passed
      exact ⟨some exponent, same⟩
    · obtain rfl := Except.ok.inj passed
      exact ⟨none, rfl⟩

theorem exists_fraction (passed : skimFraction s = .ok t) :
    ∃ fraction exponent, s = fractionText fraction ++ (exponentText exponent ++ t) := by
  unfold skimFraction at passed
  split at passed
  · obtain rfl := Except.ok.inj passed
    exact ⟨none, none, rfl⟩
  · split at passed
    · next point =>
      split at passed
      · contradiction
      · split at passed
        · next d u digit =>
          obtain ⟨digits, same⟩ := exists_digits digit u
          obtain ⟨exponent, rest⟩ := exists_optionalExponent passed
          refine ⟨some digits, exponent, ?_⟩
          rw [point, same, rest]
          rfl
        · contradiction
    · obtain ⟨exponent, same⟩ := exists_optionalExponent passed
      exact ⟨none, exponent, same⟩

/-- Digits without a zero in front spell a number. -/
theorem exists_spell {first : Fin 10} (nonzero : first ≠ 0) (more : List (Fin 10)) :
    ∃ n, n ≠ 0 ∧ Decimal.spell n = (first :: more).map digitByte := by
  induction more using List.reverseRecOn with
  | nil =>
    refine ⟨first, ?_, ?_⟩
    · intro zero
      exact nonzero (Fin.ext zero)
    · exact Decimal.spell_of_lt first.isLt
  | append_singleton more last ih =>
    obtain ⟨n, positive, same⟩ := ih
    have front : (10 * n + last) / 10 = n := by omega
    have back : (10 * n + last) % 10 = last := by omega
    refine ⟨10 * n + last, by omega, ?_⟩
    rw [Decimal.spell_of_le (by omega), front, back, same, Decimal.spell_of_lt last.isLt,
      ← List.cons_append, List.map_append]
    rfl

theorem exists_numeral (negative : Bool) (passed : skimNumber s = .ok t) :
    ∃ numeral : Numeral, (if negative then [0x2D] else []) ++ s = numeral.text ++ t := by
  obtain ⟨whole, fraction, exponent, same⟩ : ∃ whole fraction exponent,
      s = Decimal.spell whole ++ (fractionText fraction ++ (exponentText exponent ++ t)) := by
    unfold skimNumber at passed
    split at passed
    · contradiction
    · split at passed
      · next zero =>
        have spelled : Decimal.spell 0 = [0x30] := Decimal.spell_of_lt (by decide)
        split at passed
        · obtain rfl := Except.ok.inj passed
          exact ⟨0, none, none, by rw [zero, spelled]; rfl⟩
        · split at passed
          · contradiction
          · obtain ⟨fraction, exponent, same⟩ := exists_fraction passed
            exact ⟨0, fraction, exponent, by rw [zero, spelled, same]; rfl⟩
      · split at passed
        · next b u nonzero digit =>
          obtain ⟨fraction, exponent, rest⟩ := exists_fraction passed
          obtain ⟨digits, same⟩ := exists_digits digit u
          have visible : digits.first ≠ 0 := by
            intro zero
            obtain ⟨first, -⟩ := List.cons.inj same
            rw [zero] at first
            exact nonzero first
          obtain ⟨n, -, spelled⟩ := exists_spell visible digits.more
          refine ⟨n, fraction, exponent, ?_⟩
          rw [same, spelled, ← rest]
          rfl
        · contradiction
  refine ⟨⟨negative, whole, fraction, exponent⟩, ?_⟩
  simp only [same, Numeral.text, List.append_assoc]

end Numbers

section Values

theorem eq_of_skimWord {word : Bytes} (passed : skimWord word s = .ok t) : s = word ++ t := by
  fun_induction skimWord word s with
  | case1 s =>
    obtain rfl := Except.ok.inj passed
    rfl
  | case2 => contradiction
  | case3 word b s ih => rw [ih passed]; rfl
  | case4 => contradiction

theorem exists_scalar (text : IsText s) (passed : skimScalar s = .ok t) :
    ∃ value : Spelling, s = value.bytes ++ t := by
  unfold skimScalar at passed
  split at passed
  · contradiction
  · next b s =>
    split at passed
    · next quote =>
      have opening : IsText [b] := by rw [quote]; exact isText_mark (by decide)
      obtain ⟨literal, same⟩ := exists_literal (opening.of_append text) passed
      refine ⟨.text literal, ?_⟩
      rw [quote, same, Spelling.bytes, quoted, List.cons_append, List.append_assoc]
      rfl
    split at passed
    · next letter => exact ⟨.null, by rw [letter, eq_of_skimWord passed]; rfl⟩
    split at passed
    · next letter => exact ⟨.bool true, by rw [letter, eq_of_skimWord passed]; rfl⟩
    split at passed
    · next letter => exact ⟨.bool false, by rw [letter, eq_of_skimWord passed]; rfl⟩
    split at passed
    · next minus =>
      obtain ⟨numeral, same⟩ := exists_numeral true passed
      exact ⟨.number numeral, by rw [minus]; exact same⟩
    split at passed
    · obtain ⟨numeral, same⟩ := exists_numeral false passed
      exact ⟨.number numeral, same⟩
    · contradiction

/-- A key that is passed over is a literal, with a colon behind it. -/
theorem exists_key (text : IsText s) (passed : skimKey s = .ok t) :
    ∃ (before : Gap) (key : Literal) (beforeColon : Gap),
      s = before.text ++ (quoted key ++ (beforeColon.text ++ 0x3A :: t)) := by
  unfold skimKey at passed
  split at passed
  · contradiction
  · next b u visible =>
    obtain ⟨before, rfl⟩ := gap_of_skipBlanks visible
    split at passed
    · next quote =>
      split at passed
      · contradiction
      · next v string =>
        have opening : IsText [b] := by rw [quote]; exact isText_mark (by decide)
        obtain ⟨key, rfl⟩ :=
          exists_literal (opening.of_append ((isText_gap before).of_append text)) string
        unfold skimColon at passed
        split at passed
        · contradiction
        · next c w visible =>
          obtain ⟨beforeColon, rfl⟩ := gap_of_skipBlanks visible
          split at passed
          · next colon =>
            obtain rfl := Except.ok.inj passed
            refine ⟨before, key, beforeColon, ?_⟩
            rw [quote, colon, quoted, List.cons_append, List.append_assoc]
            rfl
          · contradiction
    · contradiction

end Values

end CoreLocator.Json
