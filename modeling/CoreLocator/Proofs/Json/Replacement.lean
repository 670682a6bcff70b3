import CoreLocator.Proofs.Json.Tree

/-! Another value in the place of one that a path leads to. The text around the place stays as it
is, and so does the way to it. -/
namespace CoreLocator.Json

/-- The literal spells this name, however it is escaped. -/
abbrev Literal.Denotes (literal : Literal) (name : Bytes) : Prop :=
  literal.string?.map Bytes.ofString = some name

section Replacing
variable {place : Place}

/-- The items with another value at a position. -/
def replaceItem (items : List Item) (n : Nat) (value : Spelling) : List Item :=
  items.modify n fun item => { item with value }

/-- The members with another value for the first of a name. -/
def replaceMember (name : Bytes) (value : Spelling) : List Member → List Member
  | [] => []
  | member :: members =>
    if member.key.Denotes name then { member with value } :: members
    else member :: replaceMember name value members

namespace Spelling

def replaceChild : Spelling → Step → Spelling → Spelling
  | list inner items, .index n, value => list inner (replaceItem items n value)
  | object inner members, .key name, value => object inner (replaceMember name value members)
  | whole, _, _ => whole

/-- The value with another one where a path leads. -/
def replace (whole : Spelling) : Path → Spelling → Spelling
  | [], value => value
  | step :: path, value =>
    match whole.child? step with
    | none => whole
    | some place => whole.replaceChild step (place.value.replace path value)

end Spelling

theorem item?_replaceItem {first : Bool} {items : List Item} {n : Nat}
    (found : item? first items n = some place) (value : Spelling) :
    item? first (replaceItem items n value) n = some ⟨place.before, value⟩ := by
  induction items generalizing first n place with
  | nil => contradiction
  | cons item items ih =>
    obtain ⟨before, spelled, after⟩ := item
    cases n with
    | zero =>
      obtain rfl := Option.some.inj found
      rfl
    | succ n =>
      obtain ⟨inside, more, rfl⟩ := Option.map_eq_some_iff.mp found
      rw [replaceItem, List.modify_succ_cons, item?, ← replaceItem, ih more]
      rfl

theorem itemsBytes_replaceItem {first : Bool} {items : List Item} {n : Nat}
    (found : item? first items n = some place) : ∃ behind,
    itemsBytes first items = place.before ++ (place.value.bytes ++ behind) ∧
    ∀ value, itemsBytes first (replaceItem items n value) =
      place.before ++ (value.bytes ++ behind) := by
  induction items generalizing first n place with
  | nil => contradiction
  | cons item items ih =>
    obtain ⟨before, spelled, after⟩ := item
    cases n with
    | zero =>
      obtain rfl := Option.some.inj found
      refine ⟨after.text ++ itemsBytes false items, ?_, ?_⟩
      · simp only [itemsBytes, List.append_assoc]
      · intro value
        rw [replaceItem, List.modify_zero_cons]
        simp only [itemsBytes, List.append_assoc]
    | succ n =>
      obtain ⟨inside, more, rfl⟩ := Option.map_eq_some_iff.mp found
      obtain ⟨behind, same, replaced⟩ := ih more
      refine ⟨behind, ?_, ?_⟩
      · simp only [itemsBytes, Place.behind, same, List.append_assoc, List.append_nil]
      · intro value
        rw [replaceItem, List.modify_succ_cons, ← replaceItem]
        simp only [itemsBytes, Place.behind, replaced, List.append_assoc, List.append_nil]

theorem member?_replaceMember {first : Bool} {name : Bytes} {members : List Member}
    (found : member? first name members = some place) (value : Spelling) :
    member? first name (replaceMember name value members) = some ⟨place.before, value⟩ := by
  induction members generalizing first place with
  | nil => contradiction
  | cons member members ih =>
    rw [member?] at found
    rw [replaceMember]
    split at found
    · next named =>
      obtain rfl := Option.some.inj found
      rw [if_pos named]
      exact if_pos named
    · next other =>
      obtain ⟨inside, more, rfl⟩ := Option.map_eq_some_iff.mp found
      rw [if_neg other, member?, if_neg other, ih more]
      rfl

theorem membersBytes_replaceMember {first : Bool} {name : Bytes} {members : List Member}
    (found : member? first name members = some place) : ∃ behind,
    membersBytes first members = place.before ++ (place.value.bytes ++ behind) ∧
    ∀ value, membersBytes first (replaceMember name value members) =
      place.before ++ (value.bytes ++ behind) := by
  induction members generalizing first place with
  | nil => contradiction
  | cons member members ih =>
    obtain ⟨before, key, beforeColon, afterColon, spelled, after⟩ := member
    rw [member?] at found
    split at found
    · next named =>
      obtain rfl := Option.some.inj found
      refine ⟨after.text ++ membersBytes false members, ?_, ?_⟩
      · simp only [membersBytes, List.append_assoc]
      · intro value
        rw [replaceMember, if_pos named]
        simp only [membersBytes, List.append_assoc]
    · next other =>
      obtain ⟨inside, more, rfl⟩ := Option.map_eq_some_iff.mp found
      obtain ⟨behind, same, replaced⟩ := ih more
      refine ⟨behind, ?_, ?_⟩
      · simp only [membersBytes, Place.behind, same, List.append_assoc, List.append_nil]
      · intro value
        rw [replaceMember, if_neg other]
        simp only [membersBytes, Place.behind, replaced, List.append_assoc, List.append_nil]

theorem keysDenote_replaceMember (name : Bytes) (value : Spelling) (members : List Member) :
    keysDenote (replaceMember name value members) = keysDenote members := by
  induction members with
  | nil => rfl
  | cons member members ih =>
    rw [replaceMember]
    split
    · rfl
    · rw [keysDenote, List.all_cons, ← keysDenote, ih]
      rfl

variable {whole : Spelling} {step : Step} {path : Path}

theorem child?_replaceChild (found : whole.child? step = some place) (value : Spelling) :
    (whole.replaceChild step value).child? step = some ⟨place.before, value⟩ := by
  unfold Spelling.child? at found
  split at found
  · next inner members name =>
    obtain ⟨inside, one, rfl⟩ := Option.map_eq_some_iff.mp found
    rw [Spelling.replaceChild, Spelling.child?, member?_replaceMember one]
    rfl
  · next inner items n =>
    obtain ⟨inside, one, rfl⟩ := Option.map_eq_some_iff.mp found
    rw [Spelling.replaceChild, Spelling.child?, item?_replaceItem one]
    rfl
  · contradiction

/-- A reader takes the step as before. -/
theorem isSome_enter?_replaceChild (found : whole.child? step = some place) (value : Spelling) :
    ((whole.replaceChild step value).enter? step).isSome = (whole.enter? step).isSome := by
  have there := child?_replaceChild found value
  unfold Spelling.enter?
  cases whole with
  | object inner members =>
    cases step with
    | key name =>
      simp only [Spelling.replaceChild, keysDenote_replaceMember] at there ⊢
      rw [there, found]
      split <;> rfl
    | index n => rfl
  | list inner items => cases step with
    | key name => rfl
    | index n =>
      simp only [Spelling.replaceChild] at there ⊢
      rw [there, found]
      rfl
  | null => cases step <;> rfl
  | bool value => cases step <;> rfl
  | number numeral => cases step <;> rfl
  | text literal => cases step <;> rfl

theorem bytes_replaceChild (found : whole.child? step = some place) : ∃ behind,
    whole.bytes = place.before ++ (place.value.bytes ++ behind) ∧
    ∀ value, (whole.replaceChild step value).bytes = place.before ++ (value.bytes ++ behind) := by
  unfold Spelling.child? at found
  split at found
  · next inner members name =>
    obtain ⟨inside, one, rfl⟩ := Option.map_eq_some_iff.mp found
    obtain ⟨behind, same, replaced⟩ := membersBytes_replaceMember one
    refine ⟨behind ++ [0x7D], ?_, ?_⟩
    · simp only [Spelling.bytes, Place.behind, same, List.append_assoc, List.cons_append]
    · intro value
      simp only [Spelling.replaceChild, Spelling.bytes, Place.behind, replaced, List.append_assoc,
        List.cons_append]
  · next inner items n =>
    obtain ⟨inside, one, rfl⟩ := Option.map_eq_some_iff.mp found
    obtain ⟨behind, same, replaced⟩ := itemsBytes_replaceItem one
    refine ⟨behind ++ [0x5D], ?_, ?_⟩
    · simp only [Spelling.bytes, Place.behind, same, List.append_assoc, List.cons_append]
    · intro value
      simp only [Spelling.replaceChild, Spelling.bytes, Place.behind, replaced, List.append_assoc,
        List.cons_append]
  · contradiction

/-- A value can be replaced where it stands, and the bytes around it stay. -/
theorem bytes_replace (found : whole.select? path = some place) : ∃ behind,
    whole.bytes = place.before ++ (place.value.bytes ++ behind) ∧
    ∀ value, (whole.replace path value).bytes = place.before ++ (value.bytes ++ behind) := by
  induction path generalizing whole place with
  | nil =>
    obtain rfl := Option.some.inj found
    refine ⟨[], (List.append_nil _).symm, ?_⟩
    intro value
    exact (List.append_nil _).symm
  | cons step path ih =>
    obtain ⟨next, one, found⟩ := Option.bind_eq_some_iff.mp found
    obtain ⟨last, more, same⟩ := Option.bind_eq_some_iff.mp found
    obtain rfl := Option.some.inj same
    obtain ⟨outside, whole_eq, outer⟩ := bytes_replaceChild one
    obtain ⟨behind, next_eq, inner⟩ := ih more
    refine ⟨behind ++ outside, ?_, ?_⟩
    · rw [whole_eq, next_eq]
      simp only [Place.behind, List.append_assoc]
    · intro value
      rw [Spelling.replace, one]
      dsimp only
      rw [outer, inner]
      simp only [Place.behind, List.append_assoc]

theorem enter?_replaceChild (found : whole.child? step = some place) : ∃ opened : Bool,
    whole.enter? step = (if opened then some place else none) ∧
    ∀ value, (whole.replaceChild step value).enter? step =
      if opened then some ⟨place.before, value⟩ else none := by
  refine ⟨(whole.enter? step).isSome, ?_, ?_⟩
  · cases entered : whole.enter? step with
    | none => rfl
    | some next => exact (enter?_eq_some entered).symm.trans found
  · intro value
    rw [← isSome_enter?_replaceChild found value]
    cases entered : (whole.replaceChild step value).enter? step with
    | none => rfl
    | some next => exact (enter?_eq_some entered).symm.trans (child?_replaceChild found value)

theorem reach?_cons (whole : Spelling) (step : Step) (path : Path) :
    whole.reach? (step :: path) = (whole.enter? step).bind fun place =>
      (place.value.reach? path).map (.behind place.before) := by
  rw [Spelling.reach?]
  cases whole.enter? step with
  | none => rfl
  | some place => exact Option.map_eq_bind.symm

/-- One step and then more of them: both have to be open. -/
theorem reach?_through {before front : Bytes} {value : Spelling} {later : Path}
    {found : Option Place} {here clear : Bool}
    (entered : whole.enter? step = if here then some ⟨before, value⟩ else none)
    (reached : value.reach? later = if clear then found.map (.behind front) else none) :
    whole.reach? (step :: later) =
      if here && clear then found.map (.behind (before ++ front)) else none := by
  rw [reach?_cons, entered]
  cases here with
  | false => rfl
  | true =>
    rw [if_pos rfl, Option.bind_some, reached]
    cases clear with
    | false => rfl
    | true =>
      simp only [if_true, Bool.and_self, Option.map_map, Function.comp_def, Place.behind_behind]

/-- Whether a reader gets to a value does not depend on the value, and from there on it goes its
way in what stands there. -/
theorem reach?_replace (found : whole.select? path = some place) : ∃ opened : Bool,
    ∀ onward,
      whole.reach? (path ++ onward) =
        (if opened then (place.value.reach? onward).map (.behind place.before) else none) ∧
      ∀ value, (whole.replace path value).reach? (path ++ onward) =
        if opened then (value.reach? onward).map (.behind place.before) else none := by
  induction path generalizing whole place with
  | nil =>
    obtain rfl := Option.some.inj found
    refine ⟨true, ?_⟩
    intro onward
    constructor
    · exact Option.map_id'.symm
    · intro value
      exact Option.map_id'.symm
  | cons step path ih =>
    obtain ⟨next, one, found⟩ := Option.bind_eq_some_iff.mp found
    obtain ⟨last, more, same⟩ := Option.bind_eq_some_iff.mp found
    obtain rfl := Option.some.inj same
    obtain ⟨here, entered, entered_other⟩ := enter?_replaceChild one
    obtain ⟨later, inner⟩ := ih more
    refine ⟨here && later, ?_⟩
    intro onward
    obtain ⟨reached, reached_other⟩ := inner onward
    constructor
    · exact reach?_through entered reached
    · intro value
      have there := entered_other (next.value.replace path value)
      rw [Spelling.replace, one]
      exact reach?_through there (reached_other value)

end Replacing

/-- Where a path leads is a part of the text. -/
theorem select?_source_bytes {source : Source} {path : Path} {place : Place}
    (found : source.select? path = some place) :
    ∃ behind, source.text = place.before ++ (place.value.bytes ++ behind) := by
  obtain ⟨inner, one, rfl⟩ := Option.map_eq_some_iff.mp found
  obtain ⟨behind, same, -⟩ := bytes_replace one
  refine ⟨behind ++ source.after.text, ?_⟩
  rw [Source.text, same]
  simp only [Place.behind, List.append_assoc]

end CoreLocator.Json
