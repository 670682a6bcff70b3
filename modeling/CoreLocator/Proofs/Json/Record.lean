import CoreLocator.Json.Record
import CoreLocator.Proofs.Json.Steps
import CoreLocator.Proofs.Json.Writing

/-! Reading records that are spelled in full. A reader of one value takes the value that is spelled
and nothing behind it; a record takes the members that it knows in any order, and passes over all
others. -/
namespace CoreLocator.Json

section Numbers
variable {digits rest : Bytes} {m n : Nat}

/-- The equation that stands in the definition; the one that is generated takes too long to
check. -/
theorem takeDigits_cons (b : UInt8) (s : Bytes) : Number.takeDigits m (b :: s) =
    if Ascii.isDigit b then
      match Decimal.push? Decimal.wordLimit m b with
      | none => (m, b :: s)
      | some next => Number.takeDigits next s
    else (m, b :: s) := by
  cases s <;> rfl

theorem takeDigits_append (inside : ∀ b ∈ digits, Ascii.isDigit b = true)
    (ends : ∀ b ∈ rest.head?, Ascii.isDigit b = false)
    (read : digits.foldlM (Decimal.push? Decimal.wordLimit) m = some n) :
    Number.takeDigits m (digits ++ rest) = (n, rest) := by
  induction digits generalizing m with
  | nil =>
    rw [List.foldlM_nil] at read
    obtain rfl := Option.some.inj read
    cases rest with
    | nil => rfl
    | cons b rest =>
      rw [List.nil_append, takeDigits_cons, if_neg (by simp [ends b rfl])]
  | cons b digits ih =>
    rw [List.foldlM_cons] at read
    obtain ⟨next, pushed, read⟩ := Option.bind_eq_some_iff.mp read
    rw [List.cons_append, takeDigits_cons, if_pos (inside b List.mem_cons_self), pushed]
    exact ih (fun b member => inside b (List.mem_cons_of_mem _ member)) read

theorem readTail_ends (ends : NumberEnds rest) (n : Nat) :
    Number.readTail true n rest = .ok (.natural n, rest) := by
  have stands : skimDigits ([] ++ rest) = rest :=
    skimDigits_append nofun fun b first => (ends b first).1
  rw [List.nil_append] at stands
  rw [Number.readTail, stands, Nat.sub_self]
  cases rest with
  | nil => rfl
  | cons b rest =>
    obtain ⟨-, point, lower, upper⟩ := ends b rfl
    dsimp only
    rw [if_neg point, if_neg (by simp [lower, upper])]
    rfl

/-- A number is read as itself if it fits a machine word. -/
theorem read_spell (fits : n < Decimal.wordLimit) (ends : NumberEnds rest) :
    Number.read true (Decimal.spell n ++ rest) = .ok (.natural n, rest) := by
  by_cases zero : n = 0
  · subst zero
    have boundary : Number.startsWithDigit rest = false := by
      cases rest with
      | nil => rfl
      | cons b rest => exact (ends b rfl).1
    rw [Decimal.spell_of_lt (by decide)]
    change Number.read true (0x30 :: rest) = _
    rw [Number.read, if_pos rfl, boundary]
    exact readTail_ends ends 0
  · obtain ⟨first, digits, spelled⟩ := List.exists_cons_of_ne_nil (Decimal.spell_ne_nil n)
    have inside (b : UInt8) (member : b ∈ first :: digits) : Ascii.isDigit b = true :=
      Decimal.isDigit_of_mem_spell (spelled ▸ member)
    have nonzero : first ≠ 0x30 := Decimal.head_spell_ne zero first (by rw [spelled]; rfl)
    have value := Decimal.below?_spell fits
    rw [Decimal.below?, spelled, List.foldlM_cons] at value
    obtain ⟨next, pushed, read⟩ := Option.bind_eq_some_iff.mp value
    have start : first.toNat - 0x30 = next := by
      rw [Decimal.push?] at pushed
      split at pushed
      · simpa using pushed
      · contradiction
    have taken := takeDigits_append (fun b member => inside b (List.mem_cons_of_mem _ member))
      (fun b first => (ends b first).1) read
    rw [spelled, List.cons_append, Number.read, if_neg nonzero,
      if_pos (inside first List.mem_cons_self), start, taken]
    exact readTail_ends ends n

end Numbers

/-- The reader takes exactly this value, wherever it stands. -/
def Reads {α : Type} (reader : Reader α) (value : Spelling) (a : α) : Prop :=
  ∀ (gap : Gap) (rest : Bytes), NumberEnds rest →
    reader (gap.text ++ (value.bytes ++ rest)) = .ok (a, rest)

namespace Reads
variable {value : Spelling}

theorem exists_text {units : List Nat} (spells : value.tree? = some (.text units)) :
    ∃ literal, value = .text literal ∧ literal.units = units := by
  cases value with
  | text literal => exact ⟨literal, rfl, Tree.text.inj (Option.some.inj spells)⟩
  | list inner items => simp [Spelling.tree?] at spells
  | object inner members => simp [Spelling.tree?] at spells
  | _ => simp [Spelling.tree?] at spells

theorem eq_number {numeral : Numeral} (spells : value.tree? = some (.number numeral)) :
    value = .number numeral := by
  cases value with
  | number own => exact congrArg _ (Tree.number.inj (Option.some.inj spells))
  | _ => simp [Spelling.tree?] at spells

theorem eq_null (spells : value.tree? = some .null) : value = .null := by
  cases value with
  | null => rfl
  | _ => simp [Spelling.tree?] at spells

/-- A string is read if its escapes denote one. -/
theorem text {s : String} (spells : value.tree? = some (.text (s.toList.flatMap codeUnits)))
    (expected : String) : Reads (.text expected) value s := by
  intro gap rest _
  obtain ⟨literal, rfl, units⟩ := exists_text spells
  have read := readString_literal rest literal (units ▸ chars?_flatMap s.toList)
  rw [Reader.text, Spelling.bytes, quoted, List.cons_append, List.append_assoc,
    skipBlanks_of_gap gap (by rfl)]
  dsimp only
  rw [if_pos rfl, List.singleton_append, read]
  have same : Utf8.text (s.toList.flatMap String.utf8EncodeChar) = s := by
    rw [← Utf8.encode, Utf8.text_encode, String.ofList_toList]
  rw [Except.map, same]

theorem natural {n limit : Nat} (spells : value.tree? = some (.number ⟨false, n, none, none⟩))
    (fits : n < limit) (word : limit ≤ Decimal.wordLimit) (expected : String) :
    Reads (.natural limit expected) value n := by
  intro gap rest ends
  obtain rfl := eq_number spells
  have read := read_spell (Nat.lt_of_lt_of_le fits word) ends
  obtain ⟨b, digits, spelled, digit⟩ := Decimal.head_spell n
  rw [spelled, List.cons_append] at read
  have visible : isBlank b = false := (startsValue_of_isDigit digit).1
  have unsigned : b ≠ 0x2D := ne_of_isDigit digit rfl
  have bytes : (Spelling.number ⟨false, n, none, none⟩).bytes = b :: digits := by
    simp [Spelling.bytes, Numeral.text, fractionText, exponentText, spelled]
  rw [bytes, List.cons_append, Reader.natural, skipBlanks_of_gap gap visible]
  dsimp only
  rw [if_neg unsigned, if_pos digit, read]
  dsimp only
  rw [if_pos fits]

theorem null {α : Type} (inner : Reader α) : Reads (.optional inner) .null none := by
  intro gap rest _
  have word := skimWord_append [0x75, 0x6C, 0x6C] rest
  rw [Reader.optional, Spelling.bytes, List.cons_append, skipBlanks_of_gap gap (by rfl)]
  dsimp only
  rw [if_pos rfl, word]
  rfl

/-- Only null starts with its first letter. -/
theorem head_bytes (value : Spelling) : value = .null ∨
    ∃ b s, value.bytes = b :: s ∧ isBlank b = false ∧ b ≠ 0x6E := by
  cases value with
  | null => exact .inl rfl
  | bool value => cases value <;> exact .inr ⟨_, _, rfl, rfl, by decide⟩
  | number numeral =>
    obtain ⟨b, s, same, negative | digit⟩ := head_numeral numeral
    · exact .inr ⟨b, s, same, by rw [negative]; rfl, by rw [negative]; decide⟩
    · exact .inr ⟨b, s, same, (startsValue_of_isDigit digit).1, ne_of_isDigit digit rfl⟩
  | text literal => exact .inr ⟨_, _, rfl, rfl, by decide⟩
  | list inner items => exact .inr ⟨_, _, rfl, rfl, by decide⟩
  | object inner members => exact .inr ⟨_, _, rfl, rfl, by decide⟩

theorem present {α : Type} {inner : Reader α} {a : α} (reads : Reads inner value a)
    (other : value ≠ .null) : Reads (.optional inner) value (some a) := by
  intro gap rest ends
  have read := reads [] rest ends
  obtain rfl | ⟨b, s, same, visible, letter⟩ := head_bytes value
  · contradiction
  · rw [same, List.cons_append] at read ⊢
    rw [Reader.optional, skipBlanks_of_gap gap visible]
    dsimp only
    rw [if_neg letter]
    exact congrArg (Except.map _) read

/-- An optional value is read as it was written, null if there is none. -/
theorem ofOption {α β : Type} {inner : Reader β} {write : α → Value} {convert : α → β}
    {a : Option α} (spells : value.tree? = some (Value.ofOption write a).tree)
    (other : ∀ a, (write a).tree ≠ .null)
    (reads : ∀ a, value.tree? = some (write a).tree → Reads inner value (convert a)) :
    Reads (.optional inner) value (a.map convert) := by
  cases a with
  | none =>
    obtain rfl := eq_null spells
    exact null inner
  | some a =>
    refine (reads a spells).present ?_
    rintro rfl
    exact other a (Option.some.inj spells).symm

end Reads

/-- A field takes a value if its reader does. -/
theorem Field.reads {σ α : Type} {reader : Reader α} {value : Spelling} {a : α}
    (reads : Reads reader value a) (name : String) (required : Bool) (set : α → σ → σ)
    (record : σ) :
    Reads ((Field.of name required reader set).read record) value (set a record) := by
  intro gap rest ends
  exact congrArg (Except.map _) (reads gap rest ends)

namespace Record
variable {σ : Type} {fields : List (Field σ)} {record next : σ} {seen : List String} {first : Bool}
  {s t u v : Bytes}

theorem readMembers_end (ended : nextKey first s = .ok (none, t)) :
    readMembers fields record seen first s = .ok ((record, seen), t) := by
  rw [readMembers.eq_def]
  split
  · next failed => rw [ended] at failed; contradiction
  · next same =>
    obtain ⟨-, rfl⟩ := Prod.mk.inj (Except.ok.inj (ended.symm.trans same))
    rfl
  · next more => simp [ended] at more

theorem readMembers_unknown {key : Bytes} (one : nextKey first s = .ok (some key, t))
    (unknown : (fields.find? fun f => Bytes.ofString f.name == key) = none)
    (skipped : (skimColon t).bind skim = .ok u) (shorter : u.length < s.length) :
    readMembers fields record seen first s = readMembers fields record seen false u := by
  rw [readMembers.eq_def]
  split
  · next failed => rw [one] at failed; contradiction
  · next ended => simp [one] at ended
  · next same =>
    obtain ⟨key_eq, rfl⟩ := Prod.mk.inj (Except.ok.inj (one.symm.trans same))
    obtain rfl := Option.some.inj key_eq
    rw [unknown]
    dsimp only
    rw [skipped]
    exact dif_pos shorter

theorem readMembers_known {key : Bytes} {field : Field σ}
    (one : nextKey first s = .ok (some key, t))
    (known : (fields.find? fun f => Bytes.ofString f.name == key) = some field)
    (fresh : field.name ∉ seen) (taken : (skimColon t).bind (field.read record) = .ok (next, u))
    (shorter : u.length < s.length) : readMembers fields record seen first s =
      readMembers fields next (field.name :: seen) false u := by
  rw [readMembers.eq_def]
  split
  · next failed => rw [one] at failed; contradiction
  · next ended => simp [one] at ended
  · next same =>
    obtain ⟨key_eq, rfl⟩ := Prod.mk.inj (Except.ok.inj (one.symm.trans same))
    obtain rfl := Option.some.inj key_eq
    rw [known]
    dsimp only
    rw [if_neg (by simpa using fresh), taken]
    exact dif_pos shorter

section Member
variable {key : Literal} {name : String} {value : Spelling} {field : Field σ}

/-- A member of another name is passed over. -/
theorem readMembers_other (denotes : key.string? = some name)
    (other : ∀ field ∈ fields, field.name ≠ name) (ends : NumberEnds s)
    (gap before beforeColon afterColon : Gap) :
    readMembers fields record seen first (gap.text ++ (separator first ++ (before.text ++
        (label key beforeColon afterColon ++ (value.bytes ++ s))))) =
      readMembers fields record seen false s := by
  have one := nextKey_member first before denotes
    (beforeColon.text ++ 0x3A :: (afterColon.text ++ (value.bytes ++ s)))
  have colon := skimColon_text beforeColon (afterColon.text ++ (value.bytes ++ s))
  have skipped := skim_bytes value ends
  have unknown : (fields.find? fun f => Bytes.ofString f.name == Bytes.ofString name) = none := by
    rw [List.find?_eq_none]
    intro field member same
    exact other field member (Utf8.ofString_inj.mp (beq_iff_eq.mp same))
  rw [← nextKey_gap first gap] at one
  rw [← skim_gap afterColon] at skipped
  simp only [label, List.append_assoc, List.singleton_append]
  apply readMembers_unknown one unknown
  · rw [colon]
    exact skipped
  · simp only [List.length_append, List.length_cons]
    omega

/-- A member with the name of a field goes into the record. -/
theorem readMembers_field (denotes : key.string? = some field.name)
    (known :
      (fields.find? fun f => Bytes.ofString f.name == Bytes.ofString field.name) = some field)
    (fresh : field.name ∉ seen) (reads : Reads (field.read record) value next) (ends : NumberEnds s)
    (gap before beforeColon afterColon : Gap) :
    readMembers fields record seen first (gap.text ++ (separator first ++ (before.text ++
        (label key beforeColon afterColon ++ (value.bytes ++ s))))) =
      readMembers fields next (field.name :: seen) false s := by
  have one := nextKey_member first before denotes
    (beforeColon.text ++ 0x3A :: (afterColon.text ++ (value.bytes ++ s)))
  have colon := skimColon_text beforeColon (afterColon.text ++ (value.bytes ++ s))
  rw [← nextKey_gap first gap] at one
  simp only [label, List.append_assoc, List.singleton_append]
  apply readMembers_known one known fresh
  · rw [colon]
    exact reads afterColon s ends
  · simp only [List.length_append, List.length_cons]
    omega

end Member

/-- No field is given by two members. -/
def GivenOnce (fields : List (Field σ)) (members : List Member) : Prop :=
  members.Pairwise fun a b => ∀ field ∈ fields, a.key.string? = some field.name →
    b.key.string? ≠ some field.name

/-- The names of the fields that the members give. -/
def given (fields : List (Field σ)) (members : List Member) : List String :=
  (members.filterMap (·.key.string?)).filter fun name => fields.any (·.name == name)

theorem mem_given {members : List Member} {name : String} : name ∈ given fields members ↔
    (∃ member ∈ members, member.key.string? = some name) ∧ ∃ field ∈ fields, field.name = name := by
  simp [given]

theorem given_cons {member : Member} {members : List Member} {name : String}
    (denotes : member.key.string? = some name) : given fields (member :: members) =
      if fields.any (·.name == name) then name :: given fields members
      else given fields members := by
  simp only [given, List.filterMap_cons, denotes, List.filter_cons]

/-- If each field of a member takes its value into a record that depends on the fields so far only,
then the record at the end of the object depends on the fields given. -/
theorem readMembers_members {state : List String → σ} {members : List Member} {rest : Bytes}
    (denote : keysDenote members = true) (once : GivenOnce fields members)
    (fresh : ∀ member ∈ members, ∀ name ∈ seen, member.key.string? ≠ some name)
    (reads : ∀ member ∈ members, ∀ field ∈ fields, member.key.string? = some field.name →
      ∀ seen, Reads (field.read (state seen)) member.value (state (field.name :: seen)))
    (gap : Gap) : readMembers fields (state seen) seen first
        (gap.text ++ (membersBytes first members ++ 0x7D :: rest)) =
      .ok ((state ((given fields members).reverse ++ seen), (given fields members).reverse ++ seen),
        rest) := by
  induction members generalizing seen first gap with
  | nil =>
    apply readMembers_end
    rw [nextKey_gap]
    exact nextKey_end first rest
  | cons member members ih =>
    obtain ⟨⟨name, denotes⟩, denote'⟩ := keysDenote_cons denote
    obtain ⟨apart, once'⟩ := List.pairwise_cons.mp once
    obtain ⟨now, fresh'⟩ := List.forall_mem_cons.mp fresh
    obtain ⟨taken, reads'⟩ := List.forall_mem_cons.mp reads
    rw [given_cons denotes]
    obtain ⟨before, key, beforeColon, afterColon, value, after⟩ := member
    have ends := numberEnds_gap after (numberEnds_members members rest)
    simp only [membersBytes, List.append_assoc]
    cases found : fields.find? fun f => Bytes.ofString f.name == Bytes.ofString name with
    | none =>
      have other (field : Field σ) (member : field ∈ fields) : field.name ≠ name := by
        rintro rfl
        exact List.find?_eq_none.mp found field member (beq_self_eq_true _)
      rw [readMembers_other denotes other ends, if_neg (by simpa using other)]
      exact ih denote' once' fresh' reads' after
    | some field =>
      have member := List.mem_of_find?_eq_some found
      have named := List.find?_some found
      simp only [beq_iff_eq] at named
      obtain rfl := Utf8.ofString_inj.mp named
      have unseen : field.name ∉ seen := fun given => now _ given denotes
      have known : (fields.any fun f => f.name == field.name) = true :=
        List.any_eq_true.mpr ⟨field, member, beq_self_eq_true field.name⟩
      rw [readMembers_field denotes found unseen (taken field member denotes seen) ends,
        if_pos known, List.reverse_cons, List.append_assoc, List.singleton_append]
      refine ih denote' once'
        (fun other inside => List.forall_mem_cons.mpr ⟨?_, fresh' other inside⟩) reads' after
      exact apart other inside field member denotes

/-- An object that gives every required field is read as what it leaves the record with. -/
theorem decode_source (state : List String → σ) {source : Source} {inner : Gap}
    {members : List Member} (object : source.value = .object inner members)
    (denote : keysDenote members = true) (once : GivenOnce fields members)
    (complete : ∀ field ∈ fields, field.required = true → field.name ∈ given fields members)
    (reads : ∀ member ∈ members, ∀ field ∈ fields, member.key.string? = some field.name →
      ∀ seen, Reads (field.read (state seen)) member.value (state (field.name :: seen)))
    (name : String) :
    decode name fields (state []) source.text = .ok (state (given fields members).reverse) := by
  obtain ⟨before, value, after⟩ := source
  obtain rfl : value = .object inner members := object
  have taken : readMembers fields (state []) [] true
      (inner.text ++ (membersBytes true members ++ 0x7D :: after.text)) =
        .ok ((state (given fields members).reverse, (given fields members).reverse),
          after.text) := by
    rw [readMembers_members denote once (by simp) reads inner, List.append_nil]
  have none_missing : (fields.find? fun f =>
      f.required && !(given fields members).reverse.contains f.name) = none := by
    rw [List.find?_eq_none]
    intro field member missing
    obtain ⟨required, unseen⟩ := Bool.and_eq_true_iff.mp missing
    have seen := complete field member required
    simp [seen] at unseen
  have read : read name fields (state []) (Source.text ⟨before, .object inner members, after⟩) =
      .ok (state (given fields members).reverse, after.text) := by
    rw [Source.text, Spelling.bytes, List.append_assoc, List.cons_append, read,
      skipBlanks_of_gap before (by rfl)]
    dsimp only
    rw [if_pos rfl, List.append_assoc, List.append_assoc, List.singleton_append, taken]
    dsimp only
    rw [none_missing]
  have ended : checkEnd after.text = .ok () := by
    have skipped := skipBlanks_gap after []
    rw [List.append_nil] at skipped
    rw [checkEnd, skipped]
    rfl
  rw [decode, read]
  change Except.mapError _ (checkEnd after.text >>= fun _ => .ok _) = _
  rw [ended]
  rfl

end Record
end CoreLocator.Json
