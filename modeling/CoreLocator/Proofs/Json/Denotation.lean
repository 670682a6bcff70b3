import CoreLocator.Proofs.Bytes
import CoreLocator.Proofs.Json.Skim
import CoreLocator.Proofs.Json.Writing
import CoreLocator.Proofs.Utf8

/-! A text denotes at most one value. However the grammar takes a text apart, the bytes alone settle
where each value in it ends, and what is spelled up to there. -/
namespace CoreLocator.Json

open Decimal (Digits digitByte isDigit_of_mem_spell isDigit_of_mem_text)

section Strings
variable {s t : Bytes}

/-- A character that is not escaped cannot be taken for an escape or for the end of a string. -/
theorem head_plain {c : Char} (unescaped : Unescaped c) :
    ∃ b tail, String.utf8EncodeChar c = b :: tail ∧ b ≠ 0x22 ∧ b ≠ 0x5C := by
  obtain ⟨b, tail, written, -⟩ := Utf8.reads_encodeChar c
  have inside : InString b := by
    apply inString_of_mem_encode unescaped
    rw [written]
    exact List.mem_cons_self
  exact ⟨b, tail, written, inside.1, inside.2.1⟩

theorem plain_ne_escape {c : Char} (unescaped : Unescaped c) :
    String.utf8EncodeChar c ++ s ≠ 0x5C :: t := by
  intro same
  obtain ⟨b, tail, written, -, other⟩ := head_plain unescaped
  rw [written] at same
  exact other (List.cons.inj same).1

theorem letter_append_inj {letter other : Letter} (same : letter.byte :: s = other.byte :: t) :
    letter.char = other.char ∧ s = t := by
  obtain ⟨first, behind⟩ := List.cons.inj same
  obtain ⟨decoded, simple, written⟩ := simpleEscape?_byte letter
  obtain ⟨decoded', simple', written'⟩ := simpleEscape?_byte other
  rw [first, simple'] at simple
  obtain rfl := Option.some.inj simple
  refine ⟨?_, behind⟩
  exact (Utf8.encodeChar_append_inj (congrArg (· ++ []) (written.trans written'.symm))).1

/-- What stands at the start of a literal can be told from its bytes. -/
theorem piece_append_inj {piece other : Piece} (same : piece.text ++ s = other.text ++ t) :
    piece.units = other.units ∧ s = t := by
  cases piece with
  | plain char unescaped =>
    cases other with
    | plain char' unescaped' =>
      obtain ⟨rfl, behind⟩ := Utf8.encodeChar_append_inj same
      exact ⟨rfl, behind⟩
    | letter letter => exact absurd same (plain_ne_escape unescaped)
    | unit a b c d => exact absurd same (plain_ne_escape unescaped)
  | letter letter =>
    cases other with
    | plain char unescaped => exact absurd same.symm (plain_ne_escape unescaped)
    | letter letter' =>
      obtain ⟨decoded, behind⟩ := letter_append_inj (List.cons.inj same).2
      exact ⟨congrArg codeUnits decoded, behind⟩
    | unit a b c d => exact absurd (List.cons.inj (List.cons.inj same).2).1 (letter_byte_ne letter)
  | unit a b c d =>
    cases other with
    | plain char unescaped => exact absurd same.symm (plain_ne_escape unescaped)
    | letter letter =>
      exact absurd (List.cons.inj (List.cons.inj same).2).1.symm (letter_byte_ne letter)
    | unit a' b' c' d' =>
      have words := congrArg hexWord (List.cons.inj (List.cons.inj same).2).2
      change hexWord (a.byte :: b.byte :: c.byte :: d.byte :: s) =
        hexWord (a'.byte :: b'.byte :: c'.byte :: d'.byte :: t) at words
      rw [hexWord_bytes, hexWord_bytes] at words
      obtain ⟨value, behind⟩ := Prod.mk.inj (Except.ok.inj words)
      exact ⟨congrArg (fun n => [n]) value, behind⟩

theorem piece_text_ne_nil (piece : Piece) : piece.text ≠ [] := by
  cases piece with
  | plain char unescaped =>
    obtain ⟨b, tail, written, -⟩ := head_plain unescaped
    rw [Piece.text, written]
    exact List.cons_ne_nil _ _
  | letter letter => exact List.cons_ne_nil _ _
  | unit a b c d => exact List.cons_ne_nil _ _

theorem units_of_text {literal other : Literal} (same : literal.text = other.text) :
    literal.units = other.units := by
  induction literal generalizing other with
  | nil =>
    cases other with
    | nil => rfl
    | cons piece other =>
      exact absurd (List.append_eq_nil_iff.mp same.symm).1 (piece_text_ne_nil piece)
  | cons piece literal ih =>
    cases other with
    | nil => exact absurd (List.append_eq_nil_iff.mp same).1 (piece_text_ne_nil piece)
    | cons piece' other =>
      obtain ⟨first, rest⟩ := piece_append_inj same
      rw [Literal.units, Literal.units, List.flatMap_cons, List.flatMap_cons, first]
      exact congrArg _ (ih rest)

/-- A string ends at its own quote, and its code units can be told from what stands before it. -/
theorem quoted_append_inj {literal other : Literal}
    (same : quoted literal ++ s = quoted other ++ t) :
    literal.units = other.units ∧ s = t := by
  simp only [quoted, List.cons_append, List.append_assoc, List.nil_append, List.cons.injEq,
    true_and] at same
  have ends := congrArg skimString same
  rw [skimString_literal, skimString_literal] at ends
  obtain rfl := Except.ok.inj ends
  exact ⟨units_of_text (List.append_cancel_right same), rfl⟩

end Strings

section Numbers
variable {front other rest behind : Bytes}

/-- Digits end where something else comes. -/
theorem digits_append_inj (digits : ∀ b ∈ front, Ascii.isDigit b = true)
    (digits' : ∀ b ∈ other, Ascii.isDigit b = true)
    (ends : ∀ b ∈ rest.head?, Ascii.isDigit b = false)
    (ends' : ∀ b ∈ behind.head?, Ascii.isDigit b = false)
    (same : front ++ rest = other ++ behind) : front = other ∧ rest = behind := by
  have later := congrArg skimDigits same
  rw [skimDigits_append digits ends, skimDigits_append digits' ends'] at later
  obtain rfl := later
  exact ⟨List.append_cancel_right same, rfl⟩

theorem spell_inj {n m : Nat} (same : Decimal.spell n = Decimal.spell m) : n = m := by
  have first := Decimal.below?_spell (Nat.lt_succ_of_le (Nat.le_add_right n m))
  have second := Decimal.below?_spell (Nat.lt_succ_of_le (Nat.le_add_left m n))
  rw [same] at first
  exact Option.some.inj (first.symm.trans second)

theorem digitByte_inj : ∀ a b : Fin 10, digitByte a = digitByte b → a = b := by
  decide

theorem digits_text_inj {digits other : Digits} (same : digits.text = other.text) :
    digits = other := by
  obtain ⟨first, more⟩ := digits
  obtain ⟨first', more'⟩ := other
  have whole : first :: more = first' :: more' :=
    List.map_injective_iff.mpr (fun a b => digitByte_inj a b) same
  obtain ⟨rfl, rfl⟩ := List.cons.inj whole
  rfl

theorem digits_text_head (digits : Digits) :
    ∃ b tail, digits.text = b :: tail ∧ Ascii.isDigit b = true :=
  ⟨_, _, rfl, Decimal.isDigit_digitByte digits.first⟩

/-- Which of two marks was written can be told from it. -/
theorem mark_inj {a b : UInt8} (apart : a ≠ b) {first second : Bool}
    (same : (if first then a else b) = (if second then a else b)) : first = second := by
  cases first with
  | true =>
    cases second with
    | true => rfl
    | false => exact absurd same apart
  | false =>
    cases second with
    | true => exact absurd same.symm apart
    | false => rfl

theorem sign_append_inj {sign sign' : Option Bool} {digits digits' : Digits}
    (same : signText sign ++ digits.text = signText sign' ++ digits'.text) :
    sign = sign' ∧ digits = digits' := by
  obtain ⟨b, tail, written, digit⟩ := digits_text_head digits
  obtain ⟨b', tail', written', digit'⟩ := digits_text_head digits'
  have signed {c : UInt8} (negative : Bool) (digit : Ascii.isDigit c = true) :
      (if negative then 0x2D else 0x2B : UInt8) ≠ c := by
    cases negative with
    | true => exact (ne_of_isDigit digit rfl).symm
    | false => exact (ne_of_isDigit digit rfl).symm
  cases sign with
  | none =>
    cases sign' with
    | none => exact ⟨rfl, digits_text_inj same⟩
    | some negative =>
      rw [written] at same
      exact absurd (List.cons.inj same).1.symm (signed negative digit)
  | some negative =>
    cases sign' with
    | none =>
      rw [written'] at same
      exact absurd (List.cons.inj same).1 (signed negative digit')
    | some negative' =>
      obtain ⟨mark, rest⟩ := List.cons.inj same
      exact ⟨congrArg some (mark_inj (by decide) mark), digits_text_inj rest⟩

theorem exponent_text_inj {exponent other : Option Exponent}
    (same : exponentText exponent = exponentText other) : exponent = other := by
  cases exponent with
  | none =>
    cases other with
    | none => rfl
    | some other => contradiction
  | some exponent =>
    cases other with
    | none => contradiction
    | some other =>
      obtain ⟨upper, sign, digits⟩ := exponent
      obtain ⟨upper', sign', digits'⟩ := other
      obtain ⟨mark, rest⟩ := List.cons.inj same
      obtain rfl := mark_inj (by decide) mark
      obtain ⟨rfl, rfl⟩ := sign_append_inj rest
      rfl

theorem exponent_head (exponent : Option Exponent) :
    ∀ b ∈ (exponentText exponent).head?, Ascii.isDigit b = false ∧ b ≠ 0x2E := by
  cases exponent with
  | none => nofun
  | some exponent =>
    obtain ⟨upper, sign, digits⟩ := exponent
    intro b first
    obtain rfl := Option.some.inj first
    cases upper <;> decide

theorem fraction_append_inj {fraction fraction' : Option Digits}
    {exponent exponent' : Option Exponent}
    (same : fractionText fraction ++ exponentText exponent =
      fractionText fraction' ++ exponentText exponent') :
    fraction = fraction' ∧ exponent = exponent' := by
  have ends (exponent : Option Exponent) (b : UInt8) (first : b ∈ (exponentText exponent).head?) :=
    (exponent_head exponent b first).1
  have apart (exponent : Option Exponent) (s : Bytes) : exponentText exponent ≠ 0x2E :: s := by
    intro same
    exact (exponent_head exponent 0x2E (same ▸ rfl)).2 rfl
  cases fraction with
  | none =>
    cases fraction' with
    | none => exact ⟨rfl, exponent_text_inj same⟩
    | some digits' => exact absurd same (apart exponent _)
  | some digits =>
    cases fraction' with
    | none => exact absurd same.symm (apart exponent' _)
    | some digits' =>
      obtain ⟨written, rest⟩ := digits_append_inj (fun b member => isDigit_of_mem_text member)
        (fun b member => isDigit_of_mem_text member) (ends exponent) (ends exponent')
        (List.cons.inj same).2
      exact ⟨congrArg some (digits_text_inj written), exponent_text_inj rest⟩

theorem fraction_head (fraction : Option Digits) (exponent : Option Exponent) :
    ∀ b ∈ (fractionText fraction ++ exponentText exponent).head?, Ascii.isDigit b = false := by
  cases fraction with
  | none => exact fun b first => (exponent_head exponent b first).1
  | some digits =>
    intro b first
    obtain rfl := Option.some.inj first
    rfl

/-- A number is written in its own way. -/
theorem numeral_text_inj {numeral other : Numeral} (same : numeral.text = other.text) :
    numeral = other := by
  obtain ⟨negative, whole, fraction, exponent⟩ := numeral
  obtain ⟨negative', whole', fraction', exponent'⟩ := other
  have unsigned {whole whole' : Nat} {fraction fraction' : Option Digits}
      {exponent exponent' : Option Exponent}
      (same : Decimal.spell whole ++ (fractionText fraction ++ exponentText exponent) =
        Decimal.spell whole' ++ (fractionText fraction' ++ exponentText exponent')) :
      whole = whole' ∧ fraction = fraction' ∧ exponent = exponent' := by
    obtain ⟨written, rest⟩ := digits_append_inj (fun b member => isDigit_of_mem_spell member)
      (fun b member => isDigit_of_mem_spell member) (fraction_head fraction exponent)
      (fraction_head fraction' exponent') same
    exact ⟨spell_inj written, fraction_append_inj rest⟩
  have apart (whole : Nat) (s t : Bytes) : 0x2D :: s ≠ Decimal.spell whole ++ t := by
    obtain ⟨b, digits, spelled, digit⟩ := Decimal.head_spell whole
    rw [spelled]
    intro same
    exact (ne_of_isDigit digit rfl).symm (List.cons.inj same).1
  simp only [Numeral.text, List.append_assoc] at same
  cases negative with
  | true =>
    cases negative' with
    | true =>
      obtain ⟨rfl, rfl, rfl⟩ := unsigned (List.cons.inj same).2
      rfl
    | false => exact absurd same (apart whole' _ _)
  | false =>
    cases negative' with
    | true => exact absurd same.symm (apart whole _ _)
    | false =>
      obtain ⟨rfl, rfl, rfl⟩ := unsigned same
      rfl

end Numbers

section Values
variable {value other : Spelling} {s t : Bytes}

/-- What a value is can be told from its first byte. -/
inductive Kind
  | null
  | bool
  | number
  | text
  | list
  | object

def Kind.ofFirst (b : UInt8) : Kind :=
  if b = 0x6E then .null
  else if b = 0x74 ∨ b = 0x66 then .bool
  else if b = 0x22 then .text
  else if b = 0x5B then .list
  else if b = 0x7B then .object
  else .number

def Spelling.kind : Spelling → Kind
  | .null => .null
  | .bool _ => .bool
  | .number _ => .number
  | .text _ => .text
  | .list _ _ => .list
  | .object _ _ => .object

theorem ofFirst_of_isDigit {b : UInt8} (digit : Ascii.isDigit b = true) :
    Kind.ofFirst b = .number := by
  have apart {a : UInt8} := ne_of_isDigit (a := a) digit
  rw [Kind.ofFirst, if_neg (apart rfl), if_neg (not_or.mpr ⟨apart rfl, apart rfl⟩),
    if_neg (apart rfl), if_neg (apart rfl), if_neg (apart rfl)]

theorem kind_bytes (value : Spelling) :
    ∃ b s, value.bytes = b :: s ∧ Kind.ofFirst b = value.kind := by
  cases value with
  | null => exact ⟨_, _, rfl, rfl⟩
  | bool value => cases value <;> exact ⟨_, _, rfl, rfl⟩
  | number numeral =>
    obtain ⟨b, s, same, negative | digit⟩ := head_numeral numeral
    · exact ⟨b, s, same, by rw [negative]; rfl⟩
    · exact ⟨b, s, same, ofFirst_of_isDigit digit⟩
  | text literal => exact ⟨_, _, rfl, rfl⟩
  | list inner items => exact ⟨_, _, rfl, rfl⟩
  | object inner members => exact ⟨_, _, rfl, rfl⟩

theorem kind_eq (same : value.bytes = other.bytes) : value.kind = other.kind := by
  obtain ⟨b, s, written, kind⟩ := kind_bytes value
  obtain ⟨b', s', written', kind'⟩ := kind_bytes other
  rw [written, written'] at same
  obtain ⟨rfl, -⟩ := List.cons.inj same
  exact kind.symm.trans kind'

/-- Where a value ends can be told from the text that it starts. -/
theorem bytes_append_inj (ends : NumberEnds s) (ends' : NumberEnds t)
    (same : value.bytes ++ s = other.bytes ++ t) : value.bytes = other.bytes ∧ s = t := by
  have behind := congrArg skim same
  rw [skim_bytes value ends, skim_bytes other ends'] at behind
  obtain rfl := Except.ok.inj behind
  exact ⟨List.append_cancel_right same, rfl⟩

theorem gap_append_inj {gap other : Gap} {a b : UInt8} (visible : isBlank a = false)
    (visible' : isBlank b = false) (same : gap.text ++ a :: s = other.text ++ b :: t) :
    a :: s = b :: t := by
  have behind := congrArg skipBlanks same
  rwa [skipBlanks_of_gap gap visible, skipBlanks_of_gap other visible'] at behind

/-- Two gaps in a row are one. -/
theorem gap_append (gap before : Gap) (s : Bytes) :
    gap.text ++ (before.text ++ s) = Gap.text (gap ++ before) ++ s := by
  rw [Gap.text, Gap.text, Gap.text, List.map_append, List.append_assoc]

/-- What comes next in a container can be told, behind a comma as well as without one. -/
theorem separator_append_inj (first : Bool) {gap gap' before before' : Gap} {a b : UInt8}
    (visible : isBlank a = false) (visible' : isBlank b = false)
    (same : gap.text ++ (separator first ++ (before.text ++ a :: s)) =
      gap'.text ++ (separator first ++ (before'.text ++ b :: t))) : a :: s = b :: t := by
  cases first with
  | true =>
    change gap.text ++ (before.text ++ _) = gap'.text ++ (before'.text ++ _) at same
    rw [gap_append, gap_append] at same
    exact gap_append_inj visible visible' same
  | false =>
    have behind := gap_append_inj (a := 0x2C) (b := 0x2C) rfl rfl same
    exact gap_append_inj visible visible' (List.cons.inj behind).2

/-- The end of a container is not taken for something else in it. -/
theorem closer_ne (first : Bool) {gap gap' before : Gap} {closer b : UInt8}
    (ends : isBlank closer = false ∧ closer ≠ 0x2C) (visible : isBlank b = false)
    (other : closer ≠ b) :
    gap.text ++ closer :: s ≠ gap'.text ++ (separator first ++ (before.text ++ b :: t)) := by
  intro same
  cases first with
  | true =>
    change _ = gap'.text ++ (before.text ++ _) at same
    rw [gap_append] at same
    exact other (List.cons.inj (gap_append_inj ends.1 visible same)).1
  | false =>
    exact ends.2 (List.cons.inj (gap_append_inj (b := 0x2C) ends.1 rfl same)).1

theorem label_append_inj {key other : Literal} {before after before' after' : Gap}
    (same : label key before after ++ s = label other before' after' ++ t) :
    key.string? = other.string? ∧ after.text ++ s = after'.text ++ t := by
  simp only [label, List.append_assoc, List.cons_append, List.nil_append] at same
  obtain ⟨units, rest⟩ := quoted_append_inj same
  have behind := gap_append_inj rfl rfl rest
  refine ⟨?_, (List.cons.inj behind).2⟩
  rw [Literal.string?, Literal.string?, units]

theorem itemsBytes_cons (first : Bool) (before after : Gap) (value : Spelling) (items : List Item)
    (s : Bytes) : itemsBytes first (⟨before, value, after⟩ :: items) ++ s =
      separator first ++ (before.text ++ (value.bytes ++ (after.text ++
        (itemsBytes false items ++ s)))) := by
  simp only [itemsBytes, List.append_assoc]

theorem membersBytes_cons (first : Bool) (before beforeColon afterColon after : Gap) (key : Literal)
    (value : Spelling) (members : List Member) (s : Bytes) :
    membersBytes first (⟨before, key, beforeColon, afterColon, value, after⟩ :: members) ++ s =
      separator first ++ (before.text ++ (label key beforeColon afterColon ++ (value.bytes ++
        (after.text ++ (membersBytes false members ++ s))))) := by
  simp only [membersBytes, List.append_assoc]

theorem item_append_inj (first : Bool) {gap gap' before before' : Gap} (ends : NumberEnds s)
    (ends' : NumberEnds t)
    (same : gap.text ++ (separator first ++ (before.text ++ (value.bytes ++ s))) =
      gap'.text ++ (separator first ++ (before'.text ++ (other.bytes ++ t)))) :
    value.bytes = other.bytes ∧ s = t := by
  obtain ⟨b, tail, written, visible, -⟩ := starts_bytes value
  obtain ⟨b', tail', written', visible', -⟩ := starts_bytes other
  apply bytes_append_inj ends ends'
  rw [written, written'] at same ⊢
  exact separator_append_inj first visible visible' same

theorem value_append_inj {gap gap' : Gap} (ends : NumberEnds s) (ends' : NumberEnds t)
    (same : gap.text ++ (value.bytes ++ s) = gap'.text ++ (other.bytes ++ t)) :
    value.bytes = other.bytes ∧ s = t := by
  change gap.text ++ (separator true ++ (Gap.text [] ++ _)) =
    gap'.text ++ (separator true ++ (Gap.text [] ++ _)) at same
  exact item_append_inj true ends ends' same

theorem member_append_inj (first : Bool)
    {gap gap' before before' beforeColon beforeColon' afterColon afterColon' : Gap}
    {key key' : Literal} (ends : NumberEnds s) (ends' : NumberEnds t)
    (same : gap.text ++ (separator first ++ (before.text ++
        (label key beforeColon afterColon ++ (value.bytes ++ s)))) =
      gap'.text ++ (separator first ++ (before'.text ++
        (label key' beforeColon' afterColon' ++ (other.bytes ++ t))))) :
    key.string? = key'.string? ∧ value.bytes = other.bytes ∧ s = t := by
  have labels : label key beforeColon afterColon ++ (value.bytes ++ s) =
      label key' beforeColon' afterColon' ++ (other.bytes ++ t) :=
    separator_append_inj (a := 0x22) (b := 0x22) first rfl rfl same
  obtain ⟨name, rest⟩ := label_append_inj labels
  exact ⟨name, value_append_inj ends ends' rest⟩

mutual

/-- What a value is can be told from its bytes. -/
theorem tree?_of_bytes (value other : Spelling) (same : value.bytes = other.bytes) :
    value.tree? = other.tree? := by
  have kinds := kind_eq same
  cases value with
  | null =>
    cases other with
    | null => rfl
    | _ => nomatch kinds
  | bool value =>
    cases other with
    | bool other =>
      have equal : value = other := by
        revert same
        cases value <;> cases other <;> decide
      rw [equal]
    | _ => nomatch kinds
  | number numeral =>
    cases other with
    | number other => rw [numeral_text_inj same]
    | _ => nomatch kinds
  | text literal =>
    cases other with
    | text other =>
      have units := (quoted_append_inj (congrArg (· ++ []) same)).1
      rw [Spelling.tree?, Spelling.tree?, units]
    | _ => nomatch kinds
  | list inner items =>
    cases other with
    | list inner' items' =>
      have inside := (List.cons.inj same).2
      rw [List.append_assoc, List.append_assoc] at inside
      rw [Spelling.tree?, Spelling.tree?, itemTrees?_of_bytes true items items' inside]
    | _ => nomatch kinds
  | object inner members =>
    cases other with
    | object inner' members' =>
      have inside := (List.cons.inj same).2
      rw [List.append_assoc, List.append_assoc] at inside
      rw [Spelling.tree?, Spelling.tree?, memberTrees?_of_bytes true members members' inside]
    | _ => nomatch kinds

/-- What is in a list can be told from its bytes, as far as a gap before them. -/
theorem itemTrees?_of_bytes (first : Bool) (items other : List Item) {gap gap' : Gap}
    (same : gap.text ++ (itemsBytes first items ++ [0x5D]) =
      gap'.text ++ (itemsBytes first other ++ [0x5D])) : itemTrees? items = itemTrees? other := by
  cases items with
  | nil =>
    cases other with
    | nil => rfl
    | cons item other =>
      obtain ⟨before, value, after⟩ := item
      obtain ⟨b, tail, written, visible, open'⟩ := starts_bytes value
      rw [itemsBytes_cons, written] at same
      exact absurd same (closer_ne first (by decide) visible open'.symm)
  | cons item items =>
    obtain ⟨before, value, after⟩ := item
    rw [itemsBytes_cons] at same
    cases other with
    | nil =>
      obtain ⟨b, tail, written, visible, open'⟩ := starts_bytes value
      rw [written] at same
      exact absurd same.symm (closer_ne first (by decide) visible open'.symm)
    | cons item' other =>
      obtain ⟨before', value', after'⟩ := item'
      rw [itemsBytes_cons] at same
      obtain ⟨bytes, rest⟩ := item_append_inj first
        (numberEnds_gap after (numberEnds_items items []))
        (numberEnds_gap after' (numberEnds_items other [])) same
      rw [itemTrees?, itemTrees?, tree?_of_bytes value value' bytes,
        itemTrees?_of_bytes false items other rest]

/-- The same for an object, with the names of its members. -/
theorem memberTrees?_of_bytes (first : Bool) (members other : List Member) {gap gap' : Gap}
    (same : gap.text ++ (membersBytes first members ++ [0x7D]) =
      gap'.text ++ (membersBytes first other ++ [0x7D])) :
    memberTrees? members = memberTrees? other := by
  cases members with
  | nil =>
    cases other with
    | nil => rfl
    | cons member other =>
      obtain ⟨before, key, beforeColon, afterColon, value, after⟩ := member
      rw [membersBytes_cons] at same
      exact absurd same (closer_ne (b := 0x22) first (by decide) rfl (by decide))
  | cons member members =>
    obtain ⟨before, key, beforeColon, afterColon, value, after⟩ := member
    rw [membersBytes_cons] at same
    cases other with
    | nil => exact absurd same.symm (closer_ne (b := 0x22) first (by decide) rfl (by decide))
    | cons member' other =>
      obtain ⟨before', key', beforeColon', afterColon', value', after'⟩ := member'
      rw [membersBytes_cons] at same
      obtain ⟨name, bytes, rest⟩ := member_append_inj first
        (numberEnds_gap after (numberEnds_members members []))
        (numberEnds_gap after' (numberEnds_members other [])) same
      rw [memberTrees?, memberTrees?, name, tree?_of_bytes value value' bytes,
        memberTrees?_of_bytes false members other rest]

end

end Values

/-- The text is one JSON value with blanks around it, and this is the value. -/
def Denotes (text : Bytes) (tree : Tree) : Prop :=
  ∃ source : Source, source.text = text ∧ source.tree? = some tree

/-- Every way to take a text apart gives the same value. -/
theorem Source.tree?_of_text {source other : Source} (same : source.text = other.text) :
    source.tree? = other.tree? := by
  obtain ⟨before, value, after⟩ := source
  obtain ⟨before', value', after'⟩ := other
  have blank (gap : Gap) : NumberEnds gap.text := by
    have ends := numberEnds_gap gap numberEnds_nil
    rwa [List.append_nil] at ends
  simp only [Source.text, List.append_assoc] at same
  have bytes := (value_append_inj (blank after) (blank after') same).1
  exact tree?_of_bytes value value' bytes

theorem Denotes.unique {text : Bytes} {tree other : Tree} (denotes : Denotes text tree)
    (also : Denotes text other) : tree = other := by
  obtain ⟨source, written, spells⟩ := denotes
  obtain ⟨source', written', spells'⟩ := also
  have same := Source.tree?_of_text (written.trans written'.symm)
  exact Option.some.inj (spells.symm.trans (same.trans spells'))

section Written

namespace Tree

/-- A string as JSON has it. -/
def ofText (s : String) : Tree := .text (s.toList.flatMap codeUnits)

/-- Null stands for a string that is not there. -/
def ofText? : Option String → Tree
  | none => .null
  | some s => ofText s

/-- A string can be told from its code units. -/
theorem ofText_inj {s t : String} (same : ofText s = ofText t) : s = t := by
  have units := Tree.text.inj same
  have chars := congrArg Literal.chars? units
  rw [chars?_flatMap, chars?_flatMap] at chars
  exact String.toList_inj.mp (Option.some.inj chars)

theorem ofText?_inj {s t : Option String} (same : ofText? s = ofText? t) : s = t := by
  cases s with
  | none =>
    cases t with
    | none => rfl
    | some t => cases same
  | some s =>
    cases t with
    | none => cases same
    | some t => exact congrArg some (ofText_inj same)

end Tree

theorem Value.tree_ofOption (s : Option String) :
    (Value.ofOption .text s).tree = .ofText? s := by
  cases s <;> rfl

/-- A value that is printed on lines of its own is what these lines denote, and nothing else. -/
theorem denotes_pretty (value : Value) {tree : Tree} :
    Denotes (.ofString (value.pretty ++ "\n")) tree ↔ tree = value.tree := by
  obtain ⟨spelling, written, spells⟩ := exists_spelling_pretty value
  have denotes : Denotes (.ofString (value.pretty ++ "\n")) value.tree := by
    refine ⟨⟨[], spelling, [.lineFeed]⟩, ?_, spells⟩
    rw [Bytes.ofString_append, ← written]
    rfl
  constructor
  · intro other
    exact other.unique denotes
  · rintro rfl
    exact denotes

end Written

end CoreLocator.Json
