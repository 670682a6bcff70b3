import CoreLocator.Proofs.Json.Literal
import CoreLocator.Proofs.Json.Tree

/-! Walking over a container that is spelled in full: the walk ends with the item at the position,
or with the first member of the name, and returns the bytes that spell it. -/
namespace CoreLocator.Json

section Containers

theorem nextElement_gap (first : Bool) (gap : Gap) (s : Bytes) :
    nextElement first (gap.text ++ s) = nextElement first s := by
  rw [nextElement, nextElement, skipBlanks_gap]

theorem nextKey_gap (first : Bool) (gap : Gap) (s : Bytes) :
    nextKey first (gap.text ++ s) = nextKey first s := by
  rw [nextKey, nextKey, skipBlanks_gap]

theorem nextElement_end (first : Bool) (rest : Bytes) :
    nextElement first (0x5D :: rest) = .ok (false, rest) := by
  rw [nextElement, skipBlanks_cons (by rfl)]
  exact if_pos rfl

theorem nextKey_end (first : Bool) (rest : Bytes) :
    nextKey first (0x7D :: rest) = .ok (none, rest) := by
  rw [nextKey, skipBlanks_cons (by rfl)]
  exact if_pos rfl

theorem nextElement_item (first : Bool) (before : Gap) (value : Spelling) (s : Bytes) :
    nextElement first (separator first ++ (before.text ++ (value.bytes ++ s))) =
      .ok (true, value.bytes ++ s) := by
  obtain ⟨b, t, same, visible, more⟩ := starts_bytes value
  rw [same, List.cons_append]
  cases first with
  | true =>
    rw [separator, if_pos rfl, List.nil_append, nextElement_gap, nextElement,
      skipBlanks_cons visible]
    dsimp only
    rw [if_neg more, if_pos rfl]
  | false =>
    change nextElement false (0x2C :: (before.text ++ b :: (t ++ s))) = _
    rw [nextElement, skipBlanks_cons (by rfl)]
    dsimp only
    rw [if_neg (by decide), if_neg (by decide), if_pos rfl, skipBlanks_of_gap before visible]
    exact if_neg more

theorem nextKey_member (first : Bool) (before : Gap) {key : Literal} {name : String}
    (denotes : key.string? = some name) (s : Bytes) :
    nextKey first (separator first ++ (before.text ++ (quoted key ++ s))) =
      .ok (some (Bytes.ofString name), s) := by
  have read := readKey_quoted denotes s
  rw [quoted, List.cons_append] at read ⊢
  cases first with
  | true =>
    rw [separator, if_pos rfl, List.nil_append, nextKey_gap, nextKey, skipBlanks_cons (by rfl)]
    dsimp only
    rw [if_neg (by decide), if_pos rfl, read]
  | false =>
    change nextKey false (0x2C :: (before.text ++ 0x22 :: (key.text ++ [0x22] ++ s))) = _
    rw [nextKey, skipBlanks_cons (by rfl)]
    dsimp only
    rw [if_neg (by decide), if_neg (by decide), if_pos rfl, skipBlanks_of_gap before (by rfl)]
    dsimp only
    rw [if_neg (by decide), read]

theorem nextKey_refused (first : Bool) (before : Gap) {key : Literal}
    (undenoted : key.string? = none) (s : Bytes) :
    ∃ fault, nextKey first (separator first ++ (before.text ++ (quoted key ++ s))) =
      .error fault := by
  obtain ⟨fault, refused⟩ := readKey_refused undenoted s
  refine ⟨fault, ?_⟩
  rw [quoted, List.cons_append] at refused ⊢
  cases first with
  | true =>
    rw [separator, if_pos rfl, List.nil_append, nextKey_gap, nextKey, skipBlanks_cons (by rfl)]
    dsimp only
    rw [if_neg (by decide), if_pos rfl, refused]
  | false =>
    change nextKey false (0x2C :: (before.text ++ 0x22 :: (key.text ++ [0x22] ++ s))) = _
    rw [nextKey, skipBlanks_cons (by rfl)]
    dsimp only
    rw [if_neg (by decide), if_neg (by decide), if_pos rfl, skipBlanks_of_gap before (by rfl)]
    dsimp only
    rw [if_neg (by decide), refused]

end Containers

namespace Place

/-- The bytes of a place's value, where the text before the place starts at `start`. -/
def span (start : Nat) (place : Place) : Slice :=
  ⟨start + place.before.length, place.value.bytes⟩

end Place

namespace Slice
variable {container : Slice} {front rest s t u : Bytes} {index position : Nat}
  {found : Option Slice}

theorem value_gap (gap : Gap) (s t : Bytes) :
    container.value (gap.text ++ s) t = container.value s t := by
  rw [Slice.value, skipBlanks_gap, Slice.value]

theorem value_bytes (front : Bytes) (value : Spelling)
    (text : container.text = front ++ (value.bytes ++ s)) :
    container.value (value.bytes ++ s) s = Place.span container.start ⟨front, value⟩ := by
  obtain ⟨b, t, same, visible, -⟩ := starts_bytes value
  have stands : skipBlanks (value.bytes ++ s) = value.bytes ++ s := by
    rw [same]
    exact skipBlanks_cons visible
  rw [Slice.value, stands, text]
  simp only [Place.span, List.length_append, Slice.mk.injEq]
  constructor
  · omega
  · rw [Nat.add_sub_cancel, List.take_left]

theorem findElement_next (next : nextElement (position == 0) s = .ok (true, t))
    (skipped : skim t = .ok u) : findElement container index found position s =
      findElement container index (if position = index then some (container.value t u) else found)
        (position + 1) u := by
  rw [findElement.eq_def]
  split
  · next failed => rw [next] at failed; contradiction
  · next ended => simp [next] at ended
  · next same =>
    obtain ⟨-, rfl⟩ := Prod.mk.inj (Except.ok.inj (next.symm.trans same))
    split
    · next failed => rw [skipped] at failed; contradiction
    · next same =>
      obtain rfl := Except.ok.inj (skipped.symm.trans same)
      rfl

theorem findElement_end (next : nextElement (position == 0) s = .ok (false, t)) :
    findElement container index found position s = .ok found := by
  rw [findElement.eq_def]
  split
  · next failed => rw [next] at failed; contradiction
  · rfl
  · next more => simp [next] at more

/-- One item of a list is passed over, whatever stands behind it. -/
theorem findElement_item (gap before : Gap) (value : Spelling) (ends : NumberEnds s) :
    findElement container index found position
        (gap.text ++ (separator (position == 0) ++ (before.text ++ (value.bytes ++ s)))) =
      findElement container index
        (if position = index then some (container.value (value.bytes ++ s) s) else found)
        (position + 1) s := by
  have next := nextElement_item (position == 0) before value s
  rw [← nextElement_gap _ gap] at next
  exact findElement_next next (skim_bytes value ends)

theorem findElement_nil (gap : Gap) (rest : Bytes) :
    findElement container index found position (gap.text ++ 0x5D :: rest) = .ok found := by
  apply findElement_end
  rw [nextElement_gap]
  exact nextElement_end _ rest

/-- Behind the element that is looked for, the rest of the list is only passed over. -/
theorem findElement_past (past : index < position) (gap : Gap) (items : List Item) :
    findElement container index found position
      (gap.text ++ (itemsBytes (position == 0) items ++ 0x5D :: rest)) = .ok found := by
  induction items generalizing position gap with
  | nil => exact findElement_nil gap rest
  | cons item items ih =>
    obtain ⟨before, value, after⟩ := item
    simp only [itemsBytes, List.append_assoc]
    rw [findElement_item gap before value (numberEnds_gap after (numberEnds_items items rest)),
      if_neg (by omega)]
    exact ih (by omega) after

/-- The walk over a list ends with the item at the position that is looked for, if there is one. -/
theorem findElement_items (gap : Gap) (items : List Item) (n : Nat)
    (text : container.text =
      front ++ (gap.text ++ (itemsBytes (position == 0) items ++ 0x5D :: rest))) :
    findElement container (position + n) none position
        (gap.text ++ (itemsBytes (position == 0) items ++ 0x5D :: rest)) =
      .ok ((item? (position == 0) items n).map fun place =>
        (place.behind (front ++ gap.text)).span container.start) := by
  induction items generalizing position gap n front with
  | nil => exact findElement_nil gap rest
  | cons item items ih =>
    obtain ⟨before, value, after⟩ := item
    simp only [itemsBytes, List.append_assoc] at text ⊢
    rw [findElement_item gap before value (numberEnds_gap after (numberEnds_items items rest))]
    cases n with
    | zero =>
      -- Found: what is behind this item is still walked over, and has to be well formed.
      rw [if_pos (Nat.add_zero position).symm,
        value_bytes (front ++ gap.text ++ (separator (position == 0) ++ before.text))]
      · exact findElement_past (Nat.lt_succ_self position) after items
      · rw [text]
        simp only [List.append_assoc]
    | succ n =>
      -- This item and all before it now stand in front of the rest, its last gap excepted.
      have later := @ih (front ++ gap.text ++ separator (position == 0) ++ before.text
        ++ value.bytes) (position + 1) after n (by rw [text]; simp only [List.append_assoc]; rfl)
      rw [Nat.add_assoc, Nat.add_comm 1] at later
      rw [if_neg (by omega)]
      refine later.trans ?_
      simp only [item?, itemsBytes, Option.map_map, Function.comp_def, Place.behind_behind,
        List.append_assoc, List.append_nil]
      rfl

variable {key name : Bytes} {first : Bool} {v : Bytes}

theorem findMember_next (next : nextKey first s = .ok (some name, t)) (colon : skimColon t = .ok u)
    (skipped : skim u = .ok v) : findMember container key found first s =
      findMember container key
        (if found.isNone && name == key then some (container.value u v) else found) false v := by
  rw [findMember.eq_def]
  split
  · next failed => simp [next] at failed
  · next ended => simp [next] at ended
  · next same =>
    obtain ⟨some_eq, rfl⟩ := Prod.mk.inj (Except.ok.inj (next.symm.trans same))
    obtain rfl := Option.some.inj some_eq
    split
    · next failed => rw [colon] at failed; contradiction
    · next same =>
      obtain rfl := Except.ok.inj (colon.symm.trans same)
      split
      · next failed => rw [skipped] at failed; contradiction
      · next same =>
        obtain rfl := Except.ok.inj (skipped.symm.trans same)
        rfl

theorem findMember_end (next : nextKey first s = .ok (none, t)) :
    findMember container key found first s = .ok found := by
  rw [findMember.eq_def]
  split
  · next failed => simp [next] at failed
  · rfl
  · next more => simp [next] at more

/-- One member of an object is passed over, whatever stands behind it. -/
theorem findMember_member {literal : Literal} {text : String}
    (denotes : literal.string? = some text) (gap before beforeColon afterColon : Gap)
    (value : Spelling) (ends : NumberEnds s) :
    findMember container key found first (gap.text ++ (separator first ++ (before.text ++
        (label literal beforeColon afterColon ++ (value.bytes ++ s))))) =
      findMember container key
        (if found.isNone && Bytes.ofString text == key
          then some (container.value (value.bytes ++ s) s) else found) false s := by
  have next := nextKey_member first before denotes
    (beforeColon.text ++ 0x3A :: (afterColon.text ++ (value.bytes ++ s)))
  have skipped := skim_bytes value ends
  rw [← nextKey_gap _ gap] at next
  rw [← skim_gap afterColon] at skipped
  simp only [label, List.append_assoc, List.singleton_append]
  rw [← value_gap afterColon]
  exact findMember_next next (skimColon_text beforeColon _) skipped

theorem findMember_nil (gap : Gap) (rest : Bytes) :
    findMember container key found first (gap.text ++ 0x7D :: rest) = .ok found := by
  apply findMember_end
  rw [nextKey_gap]
  exact nextKey_end _ rest

/-- Behind the member that is looked for, the rest of the object is only passed over. -/
theorem findMember_past {slice : Slice} (gap : Gap) (members : List Member)
    (denote : keysDenote members = true) :
    findMember container key (some slice) first
      (gap.text ++ (membersBytes first members ++ 0x7D :: rest)) = .ok (some slice) := by
  induction members generalizing first gap with
  | nil => exact findMember_nil gap rest
  | cons member members ih =>
    obtain ⟨before, literal, beforeColon, afterColon, value, after⟩ := member
    obtain ⟨⟨name, denotes⟩, more⟩ := keysDenote_cons denote
    simp only [membersBytes, List.append_assoc]
    rw [findMember_member denotes gap before beforeColon afterColon value
      (numberEnds_gap after (numberEnds_members members rest))]
    exact ih after more

/-- The walk over an object ends with the first member of the name, if there is one. -/
theorem findMember_members (gap : Gap) (members : List Member)
    (denote : keysDenote members = true)
    (text : container.text = front ++ (gap.text ++ (membersBytes first members ++ 0x7D :: rest))) :
    findMember container key none first
        (gap.text ++ (membersBytes first members ++ 0x7D :: rest)) =
      .ok ((member? first key members).map fun place =>
        (place.behind (front ++ gap.text)).span container.start) := by
  induction members generalizing first gap front with
  | nil => exact findMember_nil gap rest
  | cons member members ih =>
    obtain ⟨before, literal, beforeColon, afterColon, value, after⟩ := member
    obtain ⟨⟨name, denotes⟩, more⟩ := keysDenote_cons denote
    dsimp only at denotes
    simp only [membersBytes, List.append_assoc] at text ⊢
    rw [findMember_member denotes gap before beforeColon afterColon value
      (numberEnds_gap after (numberEnds_members members rest)), Option.isNone_none, Bool.true_and]
    by_cases same : Bytes.ofString name = key
    · rw [if_pos (beq_iff_eq.mpr same), value_bytes (front ++ gap.text ++ (separator first
        ++ before.text ++ label literal beforeColon afterColon)),
        findMember_past after members more]
      · rw [member?, denotes, Option.map_some, if_pos (congrArg some same)]
        rfl
      · rw [text]
        simp only [List.append_assoc]
    · have found := @ih (front ++ gap.text ++ separator first ++ before.text
        ++ label literal beforeColon afterColon ++ value.bytes) false after more
        (by rw [text]; simp only [List.append_assoc])
      rw [if_neg (by simp [same]), found, member?, denotes, Option.map_some,
        if_neg (fun equal => same (Option.some.inj equal))]
      simp only [membersBytes, Option.map_map, Function.comp_def, Place.behind_behind,
        List.append_assoc, List.append_nil]

theorem findMember_refused (next : ∃ fault, nextKey first s = .error fault) :
    ∃ fault, findMember container key found first s = .error fault := by
  obtain ⟨fault, next⟩ := next
  refine ⟨fault, ?_⟩
  rw [findMember.eq_def]
  split
  · next same => rw [Except.error.inj (next.symm.trans same)]
  · next ended => simp [next] at ended
  · next more => simp [next] at more

/-- The walk over an object stops at the first key that denotes no string, also behind the member
that is looked for. -/
theorem findMember_unreadable (gap : Gap) (members : List Member)
    (undenoted : keysDenote members = false) : ∃ fault,
    findMember container key found first
      (gap.text ++ (membersBytes first members ++ 0x7D :: rest)) = .error fault := by
  induction members generalizing first gap found with
  | nil => contradiction
  | cons member members ih =>
    obtain ⟨before, literal, beforeColon, afterColon, value, after⟩ := member
    simp only [membersBytes, List.append_assoc]
    cases denotes : literal.string? with
    | none =>
      apply findMember_refused
      simp only [label, List.append_assoc]
      rw [nextKey_gap]
      exact nextKey_refused first before denotes _
    | some name =>
      rw [findMember_member denotes gap before beforeColon afterColon value
        (numberEnds_gap after (numberEnds_members members rest))]
      apply ih after
      rw [keysDenote, List.all_cons, denotes] at undenoted
      exact undenoted

end Slice

section Steps
variable {start : Nat} {value : Spelling} {rest : Bytes}

theorem step?_scalar {bytes : Bytes} (scalar : Scalar bytes) (gap : Gap) (step : Step) :
    Slice.step? ⟨start, gap.text ++ (bytes ++ rest)⟩ step = none := by
  obtain ⟨b, s, rfl, starts, closed⟩ := scalar.starts
  have list : b ≠ 0x5B := by rintro rfl; contradiction
  have object : b ≠ 0x7B := by rintro rfl; contradiction
  rw [Slice.step?, List.cons_append, skipBlanks_of_gap gap starts.1]
  cases step with
  | key name => exact if_neg object
  | index n => exact if_neg list

theorem step?_list (gap inner : Gap) (items : List Item) (n : Nat) :
    Slice.step? ⟨start, gap.text ++ ((Spelling.list inner items).bytes ++ rest)⟩ (.index n) =
      ((Spelling.list inner items).child? (.index n)).map fun place =>
        (place.behind gap.text).span start := by
  have found := @Slice.findElement_items
    ⟨start, gap.text ++ 0x5B :: (inner.text ++ (itemsBytes true items ++ 0x5D :: rest))⟩
    (gap.text ++ [0x5B]) rest 0 inner items n (by simp only [List.append_assoc]; rfl)
  rw [Nat.zero_add] at found
  simp only [Spelling.bytes, List.cons_append, List.append_assoc, List.nil_append]
  rw [Slice.step?, skipBlanks_of_gap gap (by rfl)]
  dsimp only
  rw [if_pos rfl]
  refine (congrArg (Option.join ∘ Except.toOption) found).trans ?_
  simp only [Spelling.child?, Option.map_map, Function.comp_def, Place.behind_behind,
    List.append_assoc]
  rfl

theorem step?_object (gap inner : Gap) (members : List Member) (name : Bytes) :
    Slice.step? ⟨start, gap.text ++ ((Spelling.object inner members).bytes ++ rest)⟩ (.key name) =
      ((Spelling.object inner members).enter? (.key name)).map fun place =>
        (place.behind gap.text).span start := by
  simp only [Spelling.bytes, List.cons_append, List.append_assoc, List.nil_append]
  rw [Slice.step?, skipBlanks_of_gap gap (by rfl), Spelling.enter?]
  dsimp only
  rw [if_pos rfl]
  cases denote : keysDenote members with
  | true =>
    have found := @Slice.findMember_members
      ⟨start, gap.text ++ 0x7B :: (inner.text ++ (membersBytes true members ++ 0x7D :: rest))⟩
      (gap.text ++ [0x7B]) rest name true inner members denote
      (by simp only [List.append_assoc]; rfl)
    rw [found, if_pos rfl]
    simp only [Spelling.child?, Option.map_map, Function.comp_def, Place.behind_behind,
      List.append_assoc]
    rfl
  | false =>
    obtain ⟨fault, refused⟩ := @Slice.findMember_unreadable
      ⟨start, gap.text ++ 0x7B :: (inner.text ++ (membersBytes true members ++ 0x7D :: rest))⟩
      rest none name true inner members denote
    rw [refused]
    rfl

/-- One step in a text leads to where it leads a reader of the value that the text spells. -/
theorem step?_bytes (gap : Gap) (value : Spelling) (step : Step) :
    Slice.step? ⟨start, gap.text ++ (value.bytes ++ rest)⟩ step =
      (value.enter? step).map fun place => (place.behind gap.text).span start := by
  cases value with
  | null => exact step?_scalar scalar_null gap step
  | bool value => exact step?_scalar (scalar_bool value) gap step
  | number numeral => exact step?_scalar (scalar_numeral numeral) gap step
  | text literal => exact step?_scalar (scalar_quoted literal) gap step
  | list inner items =>
    cases step with
    | index n => exact step?_list gap inner items n
    | key name =>
      rw [Spelling.bytes, List.cons_append, Slice.step?, skipBlanks_of_gap gap (by rfl)]
      rfl
  | object inner members =>
    cases step with
    | key name => exact step?_object gap inner members name
    | index n =>
      rw [Spelling.bytes, List.cons_append, Slice.step?, skipBlanks_of_gap gap (by rfl)]
      rfl

end Steps

end CoreLocator.Json
