import CoreLocator.Proofs.Json.Tokens

/-! What is accepted as a value is what the grammar builds: the walk over a text that is UTF-8 ends
well exactly if a value is spelled there, with white space around it. -/
namespace CoreLocator.Json

open Utf8 (IsText)

variable {s t : Bytes}

section Containers

/-- What stands between the marks of a container, blanks in front left out. -/
def Contents : Container → Bool → Bytes → Prop
  | .list, first, s => ∃ items, s = itemsBytes first items
  | .object, first, s => ∃ members, s = membersBytes first members

/-- One item of a container, without the comma before it and the blanks behind it. -/
def Entry : Container → Bytes → Prop
  | .list, s => ∃ (before : Gap) (value : Spelling), s = before.text ++ value.bytes
  | .object, s =>
    ∃ (before : Gap) (key : Literal) (beforeColon afterColon : Gap) (value : Spelling),
      s = before.text ++ (label key beforeColon afterColon ++ value.bytes)

theorem contents_nil (c : Container) (first : Bool) : Contents c first [] := by
  cases c
  · exact ⟨[], rfl⟩
  · exact ⟨[], rfl⟩

theorem Contents.cons {c : Container} {entry more : Bytes} (item : Entry c entry)
    (contents : Contents c false more) (first : Bool) (after : Gap) :
    Contents c first (separator first ++ (entry ++ (after.text ++ more))) := by
  cases c with
  | list =>
    obtain ⟨before, value, rfl⟩ := item
    obtain ⟨items, rfl⟩ := contents
    exact ⟨⟨before, value, after⟩ :: items, by simp only [itemsBytes, List.append_assoc]⟩
  | object =>
    obtain ⟨before, key, beforeColon, afterColon, value, rfl⟩ := item
    obtain ⟨members, rfl⟩ := contents
    exact ⟨⟨before, key, beforeColon, afterColon, value, after⟩ :: members, by
      simp only [membersBytes, List.append_assoc]⟩

/-- A container with its marks is a value. -/
theorem Contents.bytes {c : Container} {inside : Bytes} (contents : Contents c true inside)
    (inner : Gap) {b : UInt8} (opened : Container.opened? b = some c) (s : Bytes) :
    ∃ value : Spelling, b :: (inner.text ++ (inside ++ c.closer :: s)) = value.bytes ++ s := by
  unfold Container.opened? at opened
  split at opened
  · next bracket =>
    obtain rfl := Option.some.inj opened
    obtain ⟨items, rfl⟩ := contents
    refine ⟨.list inner items, ?_⟩
    simp only [bracket, Spelling.bytes, List.cons_append, List.append_assoc, List.nil_append]
    rfl
  split at opened
  · next brace =>
    obtain rfl := Option.some.inj opened
    obtain ⟨members, rfl⟩ := contents
    refine ⟨.object inner members, ?_⟩
    simp only [brace, Spelling.bytes, List.cons_append, List.append_assoc, List.nil_append]
    rfl
  · contradiction

variable {c : Container} {around outer : List Container}

theorem cases_skimValue (passed : skimValue around s = .ok t) :
    ∃ (gap : Gap) (b : UInt8) (u : Bytes), s = gap.text ++ b :: u ∧
      ((∃ c, Container.opened? b = some c ∧ skimFirst c around u = .ok t) ∨
        ∃ v, skimScalar (b :: u) = .ok v ∧ skimAfter around v = .ok t) := by
  rw [skimValue] at passed
  split at passed
  · contradiction
  · next b u visible =>
    obtain ⟨gap, same⟩ := gap_of_skipBlanks visible
    refine ⟨gap, b, u, same, ?_⟩
    split at passed
    · next c opened => exact .inl ⟨c, opened, passed⟩
    · split at passed
      · contradiction
      · next v scalar => exact .inr ⟨v, scalar, passed⟩

theorem cases_skimFirst (passed : skimFirst c around s = .ok t) :
    ∃ (gap : Gap) (b : UInt8) (u : Bytes), s = gap.text ++ b :: u ∧
      (b = c.closer ∧ skimAfter around u = .ok t ∨ skimItem c around (b :: u) = .ok t) := by
  rw [skimFirst] at passed
  split at passed
  · contradiction
  · next b u visible =>
    obtain ⟨gap, same⟩ := gap_of_skipBlanks visible
    refine ⟨gap, b, u, same, ?_⟩
    split at passed
    · next closed => exact .inl ⟨closed, passed⟩
    · exact .inr passed

theorem cases_skimAfter (passed : skimAfter (c :: outer) s = .ok t) :
    ∃ (gap : Gap) (b : UInt8) (u : Bytes), s = gap.text ++ b :: u ∧
      (b = 0x2C ∧ skimItem c outer u = .ok t ∨ b = c.closer ∧ skimAfter outer u = .ok t) := by
  rw [skimAfter] at passed
  split at passed
  · contradiction
  · next b u visible =>
    obtain ⟨gap, same⟩ := gap_of_skipBlanks visible
    refine ⟨gap, b, u, same, ?_⟩
    split at passed
    · next comma => exact .inl ⟨comma, passed⟩
    split at passed
    · next closed => exact .inr ⟨closed, passed⟩
    · contradiction

/-- The head of `s` is a value, and the walk goes on behind it. -/
structure HasValue (around : List Container) (s t : Bytes) (before : Gap) (value : Spelling)
    (behind : Bytes) : Prop where
  whole : s = before.text ++ (value.bytes ++ behind)
  walk : skimAfter around behind = .ok t

/-- The head of `s` is an item of a container, and the walk goes on behind it. -/
structure HasEntry (c : Container) (around : List Container) (s t entry behind : Bytes) :
    Prop where
  whole : s = entry ++ behind
  item : Entry c entry
  walk : skimAfter (c :: around) behind = .ok t

/-- The head of `s` is what is left of a container, and the walk goes on behind its end. -/
structure HasRest (c : Container) (first : Bool) (around : List Container) (s t : Bytes)
    (gap : Gap) (inside behind : Bytes) : Prop where
  whole : s = gap.text ++ (inside ++ c.closer :: behind)
  contents : Contents c first inside
  walk : skimAfter around behind = .ok t

theorem HasValue.shorter {before : Gap} {value : Spelling} {behind : Bytes}
    (has : HasValue around s t before value behind) : behind.length < s.length := by
  obtain ⟨b, u, same, -⟩ := starts_bytes value
  rw [has.whole, same]
  simp only [List.length_append, List.length_cons]
  omega

/-- An item and what is left behind it. -/
theorem HasEntry.rest {u entry behind : Bytes} (has : HasEntry c around u t entry behind)
    (more : ∃ gap inside v, HasRest c false around behind t gap inside v) (first : Bool)
    (gap : Gap) (same : s = gap.text ++ (separator first ++ u)) :
    ∃ inside v, HasRest c first around s t gap inside v := by
  obtain ⟨after, inside, v, more⟩ := more
  refine ⟨_, v, ?_, more.contents.cons has.item first after, more.walk⟩
  simp only [same, has.whole, more.whole, List.append_assoc]

theorem isText_entry {entry : Bytes} (item : Entry c entry) : IsText entry := by
  cases c with
  | list =>
    obtain ⟨before, value, rfl⟩ := item
    exact (isText_gap before).append (isText_bytes value)
  | object =>
    obtain ⟨before, key, beforeColon, afterColon, value, rfl⟩ := item
    exact (isText_gap before).append
      ((isText_label key beforeColon afterColon).append (isText_bytes value))

mutual

/-- A value that is passed over is one that the grammar builds, whatever is around it. -/
theorem hasValue (around : List Container) (s : Bytes) {t : Bytes} (text : IsText s)
    (passed : skimValue around s = .ok t) :
    ∃ before value behind, HasValue around s t before value behind := by
  obtain ⟨before, b, u, same, ⟨c, opened, passed⟩ | ⟨v, scalar, walk⟩⟩ := cases_skimValue passed
  · have mark : IsText [b] := by
      apply isText_mark
      unfold Container.opened? at opened
      split at opened
      · next bracket => rw [bracket]; decide
      split at opened
      · next brace => rw [brace]; decide
      · contradiction
    have inner : IsText u := mark.of_append ((isText_gap before).of_append (same ▸ text))
    have shorter : u.length < s.length := by
      rw [same, List.length_append, List.length_cons]
      omega
    obtain ⟨gap, inside, v, has⟩ := hasFirst c around u inner passed
    obtain ⟨value, bytes⟩ := has.contents.bytes gap opened v
    refine ⟨before, value, v, ?_, has.walk⟩
    rw [same, has.whole, bytes]
  · obtain ⟨value, bytes⟩ := exists_scalar ((isText_gap before).of_append (same ▸ text)) scalar
    exact ⟨before, value, v, by rw [same, bytes], walk⟩
termination_by 3 * s.length

theorem hasEntry (c : Container) (around : List Container) (s : Bytes) {t : Bytes} (text : IsText s)
    (passed : skimItem c around s = .ok t) :
    ∃ entry behind, HasEntry c around s t entry behind ∧ behind.length < s.length := by
  cases c with
  | list =>
    rw [skimItem] at passed
    obtain ⟨before, value, v, has⟩ := hasValue (.list :: around) s text passed
    refine ⟨_, v, ⟨?_, ⟨before, value, rfl⟩, has.walk⟩, has.shorter⟩
    rw [has.whole, List.append_assoc]
  | object =>
    rw [skimItem] at passed
    split at passed
    · contradiction
    · next u keyed =>
      have shorter := length_of_skimKey keyed
      obtain ⟨before, key, beforeColon, same⟩ := exists_key text keyed
      have inner : IsText u := by
        rw [same] at text
        have text := (isText_quoted key).of_append ((isText_gap before).of_append text)
        have colon : IsText [0x3A] := isText_mark (by decide)
        exact colon.of_append ((isText_gap beforeColon).of_append text)
      obtain ⟨afterColon, value, v, has⟩ := hasValue (.object :: around) u inner passed
      have behind := has.shorter
      refine ⟨_, v, ⟨?_, ⟨before, key, beforeColon, afterColon, value, rfl⟩, has.walk⟩, by omega⟩
      simp only [same, has.whole, label, List.append_assoc, List.cons_append, List.nil_append]
termination_by 3 * s.length + 1

theorem hasFirst (c : Container) (around : List Container) (s : Bytes) {t : Bytes} (text : IsText s)
    (passed : skimFirst c around s = .ok t) :
    ∃ gap inside behind, HasRest c true around s t gap inside behind := by
  obtain ⟨gap, b, u, same, ⟨rfl, walk⟩ | passed⟩ := cases_skimFirst passed
  · exact ⟨gap, [], u, same, contents_nil c true, walk⟩
  · have inner : IsText (b :: u) := (isText_gap gap).of_append (same ▸ text)
    have size : (b :: u).length ≤ s.length := by
      rw [same, List.length_append]
      omega
    obtain ⟨entry, v, has, shorter⟩ := hasEntry c around (b :: u) inner passed
    have later : IsText v := (isText_entry has.item).of_append (has.whole ▸ inner)
    exact ⟨gap, has.rest (hasAfter c around v later has.walk) true gap same⟩
termination_by 3 * s.length + 2

theorem hasAfter (c : Container) (around : List Container) (s : Bytes) {t : Bytes} (text : IsText s)
    (passed : skimAfter (c :: around) s = .ok t) :
    ∃ gap inside behind, HasRest c false around s t gap inside behind := by
  obtain ⟨gap, b, u, same, ⟨rfl, passed⟩ | ⟨rfl, walk⟩⟩ := cases_skimAfter passed
  · have inner : IsText u :=
      (isText_separator false).of_append ((isText_gap gap).of_append (same ▸ text))
    have size : u.length < s.length := by
      rw [same, List.length_append, List.length_cons]
      omega
    obtain ⟨entry, v, has, shorter⟩ := hasEntry c around u inner passed
    have later : IsText v := (isText_entry has.item).of_append (has.whole ▸ inner)
    exact ⟨gap, has.rest (hasAfter c around v later has.walk) false gap same⟩
  · exact ⟨gap, [], u, same, contents_nil c false, walk⟩
termination_by 3 * s.length

end

end Containers

/-- A text that is accepted is one that the grammar builds. -/
theorem exists_source (text : IsText s) (accepted : check s = .ok ()) :
    ∃ source : Source, source.text = s := by
  unfold check at accepted
  split at accepted
  · contradiction
  · next rest passed =>
    obtain ⟨before, value, behind, has⟩ := hasValue [] s text passed
    have walk := has.walk
    rw [skimAfter] at walk
    obtain rfl := Except.ok.inj walk
    unfold checkEnd at accepted
    split at accepted
    · next ended =>
      obtain ⟨after, same⟩ := gap_of_skipBlanks ended
      rw [List.append_nil] at same
      refine ⟨⟨before, value, after⟩, ?_⟩
      rw [has.whole, same, Source.text, List.append_assoc]
    · contradiction

/-- The texts that are accepted are exactly those that the grammar builds. -/
theorem accepted_iff : IsText s ∧ check s = .ok () ↔ ∃ source : Source, source.text = s := by
  constructor
  · rintro ⟨text, accepted⟩
    exact exists_source text accepted
  · rintro ⟨source, rfl⟩
    exact ⟨isText_source source, check_source source⟩

end CoreLocator.Json
