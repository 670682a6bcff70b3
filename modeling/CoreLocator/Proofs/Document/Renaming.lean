import CoreLocator.Proofs.Document

/-! What the key of an unrelated member does to a lookup. A document is accepted whatever its keys
are, but the walk through an object decodes them all: a key that denotes no string hides everything
in the object, and any other that is not the one looked up changes nothing. -/
namespace CoreLocator.Json

section Keys
variable {name : Bytes}

def named? (name : Bytes) (members : List Member) : Option Spelling :=
  (members.find? fun member => decide (member.key.Denotes name)).map Member.value

theorem value_member? (first : Bool) (name : Bytes) (members : List Member) :
    (member? first name members).map Place.value = named? name members := by
  induction members generalizing first with
  | nil => rfl
  | cons member members ih =>
    rw [member?, named?, List.find?_cons]
    split
    · next named =>
      rw [decide_eq_true named]
      rfl
    · next other =>
      rw [decide_eq_false other, Option.map_map]
      exact ih false

/-- A key at this place of an object is not the one looked up: it does not denote the name, or a
member before it does. -/
def Passed (name : Bytes) (earlier : List Member) (key : Literal) : Prop :=
  ¬key.Denotes name ∨ ∃ member ∈ earlier, member.key.Denotes name

theorem named?_passed {earlier : List Member} {member : Member}
    (passed : Passed name earlier member.key) (later : List Member) :
    named? name (earlier ++ member :: later) = named? name (earlier ++ later) := by
  rw [named?, named?, List.find?_append, List.find?_append]
  rcases passed with other | ⟨first, present, denotes⟩
  · rw [List.find?_cons, decide_eq_false other]
  · have found : (earlier.find? fun member => decide (member.key.Denotes name)).isSome := by
      apply List.find?_isSome.mpr
      exact ⟨first, present, decide_eq_true denotes⟩
    obtain ⟨early, same⟩ := Option.isSome_iff_exists.mp found
    rw [same]
    rfl

theorem reach?_object (inner : Gap) (members : List Member) (name : Bytes) (onward : Path) :
    ((Spelling.object inner members).reach? (.key name :: onward)).map Place.value =
      if keysDenote members then
        (named? name members).bind fun value => (value.reach? onward).map Place.value
      else none := by
  rw [reach?_cons, Spelling.enter?]
  split
  · rw [Spelling.child?, ← value_member? true name members]
    cases member? true name members with
    | none => rfl
    | some place =>
      simp only [Option.map_some, Option.bind_some, Option.map_map, Function.comp_def, Place.behind]
  · rfl

theorem keysDenote_insert (earlier : List Member) (member : Member) (later : List Member) :
    keysDenote (earlier ++ member :: later) =
      (member.key.string?.isSome && keysDenote (earlier ++ later)) := by
  simp only [keysDenote, List.all_append, List.all_cons]
  exact Bool.and_left_comm _ _ _

end Keys
end CoreLocator.Json

namespace CoreLocator.Document
open Json

/-- A member of an object that a path enters by a key, where it is not the member that the key
names. The object stands between `before` and `behind`. -/
structure Bystander (source : Source) where
  way : Path
  name : Bytes
  onward : Path
  before : Bytes
  inner : Gap
  earlier : List Member
  member : Member
  later : List Member
  behind : Bytes
  visited : source.select? way = some ⟨before, .object inner (earlier ++ member :: later)⟩
  whole : source.text =
    before ++ ((Spelling.object inner (earlier ++ member :: later)).bytes ++ behind)
  passed : Passed name earlier member.key

namespace Bystander
variable {source : Source}

def path (b : Bystander source) : Path := b.way ++ .key b.name :: b.onward

def object (b : Bystander source) (key : Literal) : Spelling :=
  .object b.inner (b.earlier ++ { b.member with key } :: b.later)

def renamed (b : Bystander source) (key : Literal) : Bytes :=
  b.before ++ ((b.object key).bytes ++ b.behind)

theorem renamed_self (b : Bystander source) : b.renamed b.member.key = source.text := by
  have same : { b.member with key := b.member.key } = b.member := by
    cases b.member
    rfl
  rw [renamed, object, same]
  exact b.whole.symm

/-- What a reader finds behind the object's key does not depend on a key that is passed over, as
long as that denotes a string. -/
theorem reach?_object_renamed (b : Bystander source) : ∃ found : Option Spelling,
    ∀ key, Passed b.name b.earlier key →
      ((b.object key).reach? (.key b.name :: b.onward)).map Place.value =
        if key.string?.isSome then found else none := by
  refine ⟨if keysDenote (b.earlier ++ b.later) then
    (named? b.name (b.earlier ++ b.later)).bind fun value =>
      (value.reach? b.onward).map Place.value else none, ?_⟩
  intro key passed
  have others : named? b.name (b.earlier ++ { b.member with key } :: b.later) =
      named? b.name (b.earlier ++ b.later) := named?_passed passed b.later
  rw [object, reach?_object, keysDenote_insert, others]
  cases key.string?.isSome <;> rfl

/-- The text with another key is a document again, with the object replaced. -/
theorem exists_renamed (b : Bystander source) : ∃ opened : Bool, ∀ key, ∃ other : Source,
    other.text = b.renamed key ∧ (other.reach? b.path).map Place.value =
      if opened then ((b.object key).reach? (.key b.name :: b.onward)).map Place.value
      else none := by
  obtain ⟨place, selected, there⟩ := Option.map_eq_some_iff.mp b.visited
  obtain ⟨opened, reached⟩ := reach?_replace selected
  obtain ⟨behind, text, replaced⟩ := bytes_replace selected
  obtain ⟨front, value⟩ := place
  obtain ⟨fore, rfl⟩ := Place.mk.inj there
  have back : b.behind = behind ++ source.after.text := by
    have whole := b.whole
    rw [Source.text, text, ← fore] at whole
    simp only [List.append_assoc, List.append_cancel_left_eq] at whole
    exact whole.symm
  refine ⟨opened, ?_⟩
  intro key
  refine ⟨⟨source.before, source.value.replace b.way (b.object key), source.after⟩, ?_, ?_⟩
  · rw [Source.text, replaced, renamed, ← fore, back]
    simp only [List.append_assoc]
  · rw [Source.reach?, path, (reached _).2]
    cases opened with
    | false => rfl
    | true => simp only [if_true, Option.map_map, Function.comp_def, Place.behind]

end Bystander

/-- A document with another key for a member that is passed over is a document again. Whether the
lookup finds anything, and what it finds, is the same for all keys that denote a string; if the key
denotes none, nothing is found. -/
theorem search?_renamed {source : Source} (b : Bystander source) {path : String}
    (parsed : Path.parse? (.ofString path) = some b.path) :
    b.renamed b.member.key = source.text ∧ ∃ found : Option Bytes,
      ∀ key, Passed b.name b.earlier key →
        validate (b.renamed key) = .ok () ∧
        search? (b.renamed key) path = if key.string?.isSome then found else none := by
  constructor
  · exact b.renamed_self
  · obtain ⟨opened, rebuilt⟩ := b.exists_renamed
    obtain ⟨found, same⟩ := b.reach?_object_renamed
    refine ⟨if opened then found.map Spelling.content else none, ?_⟩
    intro key passed
    obtain ⟨other, text, reached⟩ := rebuilt key
    rw [← text]
    constructor
    · exact validate_iff.mpr ⟨other, rfl⟩
    · rw [search?_steps other parsed, Source.content?, reached, same key passed]
      cases opened <;> cases key.string?.isSome <;> rfl

def pair : Source where
  before := []
  value := .object [] [.plain "x" (.number ⟨false, 1, none, none⟩),
    .plain "k" (.number ⟨false, 2, none, none⟩)]
  after := []

/-- The member that a lookup of `k` passes over. -/
def pairBystander : Bystander pair where
  way := []
  name := [0x6B]
  onward := []
  before := []
  inner := []
  earlier := []
  member := .plain "x" (.number ⟨false, 1, none, none⟩)
  later := [.plain "k" (.number ⟨false, 2, none, none⟩)]
  behind := []
  visited := rfl
  whole := by rw [List.append_nil]; exact List.append_nil _
  passed := .inl (by decide +kernel)

/-- An escape that is half of a pair, without the other half. -/
def unpaired : Literal :=
  [.unit ⟨⟨13, by decide⟩, false⟩ ⟨⟨8, by decide⟩, false⟩ ⟨⟨0, by decide⟩, false⟩
    ⟨⟨0, by decide⟩, false⟩]

theorem parse?_k : Path.parse? (.ofString "k") = some [.key [0x6B]] := by
  apply Path.parse?_eq_some.mpr
  refine ⟨⟨false, field "k" [] (by decide +kernel) (by decide +kernel), []⟩, ?_, ?_⟩ <;>
    decide +kernel

theorem search?_pair : search? pair.text "k" = some [0x32] := by
  rw [search?_steps pair parse?_k]
  decide +kernel

/-- Another key changes nothing, unless it is half of a pair. -/
theorem search?_renamed_pair :
    search? (pairBystander.renamed [.letter .slash]) "k" = some [0x32] ∧
      validate (pairBystander.renamed unpaired) = .ok () ∧
      search? (pairBystander.renamed unpaired) "k" = none := by
  obtain ⟨self, found, same⟩ := search?_renamed pairBystander parse?_k
  obtain ⟨-, here⟩ := same pairBystander.member.key pairBystander.passed
  rw [self, search?_pair] at here
  obtain ⟨-, other⟩ := same [.letter .slash] (.inl (by decide))
  obtain ⟨valid, hidden⟩ := same unpaired (.inl (by decide))
  exact ⟨other.trans here.symm, valid, hidden⟩

/-- It is not true that no key of an unrelated member can change what is found. -/
theorem key_hides_sibling : ¬∀ (source : Source) (b : Bystander source) (path : String)
    (key : Literal), Path.parse? (.ofString path) = some b.path → ¬key.Denotes b.name →
      validate source.text = .ok () → validate (b.renamed key) = .ok () →
      search? (b.renamed key) path = search? source.text path := by
  intro invariant
  let hidden : Source := ⟨[], pairBystander.object unpaired, []⟩
  have text : hidden.text = pairBystander.renamed unpaired := rfl
  have valid : validate hidden.text = .ok () := validate_iff.mpr ⟨hidden, rfl⟩
  have missing : search? hidden.text "k" = none := by
    rw [search?_steps hidden parse?_k]
    decide +kernel
  have found := invariant pair pairBystander "k" unpaired parse?_k (by decide)
    (validate_iff.mpr ⟨pair, rfl⟩) (text ▸ valid)
  rw [← text, missing, search?_pair] at found
  contradiction

end CoreLocator.Document
