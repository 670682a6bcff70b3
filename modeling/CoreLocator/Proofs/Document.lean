import CoreLocator.Document
import CoreLocator.Proofs.Bytes
import CoreLocator.Proofs.Json.Acceptance
import CoreLocator.Proofs.Json.Lookup

/-! The discovery document as a text that the grammar builds, and its paths as steps. Whatever a
document says of the core is found by following these steps through the value that it spells. -/
namespace CoreLocator

namespace Json

/-- A member without blanks, its key as it is. -/
def Member.plain (key : String) (value : Spelling) : Member :=
  ⟨[], key.toList.filterMap fun c => if unescaped : Unescaped c then some (.plain c unescaped)
    else none, [], [], value, []⟩

/-- What a lookup returns of a value: the contents of a string as they are spelled, and the whole
text of anything else. -/
def Spelling.content : Spelling → Bytes
  | .text literal => literal.text
  | value => value.bytes

theorem isText_content (value : Spelling) : Utf8.IsText value.content := by
  unfold Spelling.content
  split
  · next literal => exact isText_literal literal
  · exact isText_bytes value

/-- What stands at the end of a path, whatever kind of value it is. -/
def Source.content? (source : Source) (path : Path) : Option Bytes :=
  ((source.reach? path).map Place.value).map Spelling.content

theorem isText_of_content? {source : Source} {path : Path} {content : Bytes}
    (found : source.content? path = some content) : Utf8.IsText content := by
  obtain ⟨value, -, rfl⟩ := Option.map_eq_some_iff.mp found
  exact isText_content value

namespace Source
variable {source : Source} {tree : Tree}

/-- What stands at a path is what stands in the value that all but its last step lead to. -/
theorem content?_append (spells : source.tree? = some tree) (path : Path) (step : Step) :
    source.content? (path ++ [step]) = (source.select? path).bind fun entry =>
      (entry.value.child? step).map (·.value.content) := by
  rw [content?, reach?, reach?_of_tree spells, Spelling.select?_append, select?]
  cases source.value.select? path with
  | none => rfl
  | some entry =>
    rw [Option.bind_some, Option.map_some, Option.bind_some, Spelling.select?]
    change _ = (entry.value.child? step).map _
    cases entry.value.child? step <;> rfl

theorem isSome_content? (spells : source.tree? = some tree) (path : Path) :
    (source.content? path).isSome = (tree.follow? path).isSome := by
  have same := congrArg Option.isSome (select?_source_tree spells path)
  rw [Option.isSome_map, Option.isSome_map, select?, Option.isSome_map] at same
  rw [content?, reach?, reach?_of_tree spells, Option.isSome_map, Option.isSome_map,
    Option.isSome_map, same]

end Source

theorem text_slice (place : Place) : place.slice.text = place.value.content := by
  obtain ⟨before, value⟩ := place
  cases value <;> rfl

end Json

namespace Document
open Json

section Paths

/-- A part of a path that is a key with indices behind it. -/
def field (name : String) (indices : List Path.Index)
    (plain : ∀ b ∈ Bytes.ofString name, b ≠ 0x2E ∧ b ≠ 0x5B)
    (solid : Bytes.ofString name ≠ []) : Path.Part :=
  ⟨Bytes.ofString name, indices, plain, .inl solid⟩

theorem steps_field {name : String} {indices : List Path.Index}
    (plain : ∀ b ∈ Bytes.ofString name, b ≠ 0x2E ∧ b ≠ 0x5B) (solid : Bytes.ofString name ≠ []) :
    (field name indices plain solid).steps =
      .key (Bytes.ofString name) :: indices.map fun index => .index index.digits.value := by
  rw [field, Path.Part.steps, if_neg solid]
  rfl

def firstIndex : Path.Index := ⟨false, ⟨⟨0, by decide⟩, []⟩, by decide⟩

def groups : Path.Part := field "GGGroups" [firstIndex] (by decide +kernel) (by decide +kernel)
def cores : Path.Part := field "Cores" [firstIndex] (by decide +kernel) (by decide +kernel)

def connectivity (index : Path.Index) : Path.Part :=
  field "Connectivity" [index] (by decide +kernel) (by decide +kernel)

def key (name : String) : Step := .key (Bytes.ofString name)

def groupSteps : Path := [key "GGGroups", .index 0]
def certificateSteps : Path := groupSteps ++ [key "CAs", .index 0]
def groupIdSteps : Path := groupSteps ++ [key "GGGroupId"]
def coreSteps : Path := groupSteps ++ [key "Cores", .index 0]
def coreArnSteps : Path := coreSteps ++ [key "thingArn"]
def entrySteps (index : Nat) : Path := coreSteps ++ [key "Connectivity", .index index]
def hostSteps (index : Nat) : Path := entrySteps index ++ [key "HostAddress"]
def portSteps (index : Nat) : Path := entrySteps index ++ [key "PortNumber"]

theorem parse?_certificatePath :
    Path.parse? (.ofString certificatePath) = some certificateSteps := by
  apply Path.parse?_eq_some.mpr
  refine ⟨⟨false, groups, [field "CAs" [firstIndex] (by decide +kernel) (by decide +kernel)]⟩,
    ?_, ?_⟩ <;> decide +kernel

theorem parse?_groupIdPath : Path.parse? (.ofString groupIdPath) = some groupIdSteps := by
  apply Path.parse?_eq_some.mpr
  refine ⟨⟨false, groups, [field "GGGroupId" [] (by decide +kernel) (by decide +kernel)]⟩,
    ?_, ?_⟩ <;> decide +kernel

theorem parse?_coreArnPath : Path.parse? (.ofString coreArnPath) = some coreArnSteps := by
  apply Path.parse?_eq_some.mpr
  refine ⟨⟨false, groups, [cores, field "thingArn" [] (by decide +kernel) (by decide +kernel)]⟩,
    ?_, ?_⟩ <;> decide +kernel

/-- The path of an entry's field leads to that entry, as far as its number fits a machine word. -/
theorem parse?_entry {index : Nat} (fits : index < Decimal.wordLimit) {leaf : Path.Part}
    {tail : String} (spelled : Bytes.ofString tail = 0x5D :: 0x2E :: leaf.text) :
    Path.parse? (.ofString (corePath ++ ".Connectivity[" ++ toString index ++ tail)) =
      some (entrySteps index ++ leaf.steps) := by
  obtain ⟨digits, same, rfl⟩ := Decimal.exists_digits_spell index
  have front : Bytes.ofString (corePath ++ ".Connectivity[") =
      groups.text ++ 0x2E :: (cores.text ++ 0x2E :: (Bytes.ofString "Connectivity" ++ [0x5B])) := by
    decide +kernel
  apply Path.parse?_eq_some.mpr
  refine ⟨⟨false, groups, [cores, connectivity ⟨false, digits, fits⟩, leaf]⟩, ?_, ?_⟩
  · rw [Bytes.ofString_append, Bytes.ofString_append, front, spelled, ← Decimal.spell, ← same]
    simp [Path.Written.text, Bytes.join, connectivity, field, Path.Part.text, Path.Index.text]
  · simp only [Path.Written.steps, groups, cores, connectivity, List.map_cons, List.map_nil,
      steps_field, List.flatten_cons, List.flatten_nil, List.append_nil]
    rfl

/-- A number that does not fit one is no index. -/
theorem parse?_entry_large {index : Nat} (large : Decimal.wordLimit ≤ index) {leaf : Path.Part}
    {tail : String} (spelled : Bytes.ofString tail = 0x5D :: 0x2E :: leaf.text) :
    Path.parse? (.ofString (corePath ++ ".Connectivity[" ++ toString index ++ tail)) = none := by
  obtain ⟨digits, same, rfl⟩ := Decimal.exists_digits_spell index
  let name := Bytes.ofString "Connectivity"
  let piece := name ++ 0x5B :: (digits.text ++ [0x5D])
  have digit (b : UInt8) (other : Ascii.isDigit b = false) : b ∉ digits.text := by
    intro member
    exact Bool.eq_false_iff.mp other (Decimal.isDigit_of_mem_text member)
  have refused : Path.part? piece = none := by
    have positive : 0 < Decimal.wordLimit := by decide
    have number := Decimal.whole?_text positive false digits
    rw [if_neg (Nat.not_lt_of_le large), if_neg Bool.false_ne_true, List.nil_append] at number
    rw [Path.part?_named (by decide +kernel) (by decide +kernel),
      Path.indices?_cons (Bytes.cut?_append (digit _ (by decide))), number]
    rfl
  have clear : (0x2E : UInt8) ∉ piece := by
    intro member
    rcases List.mem_append.mp member with key | index
    · revert key
      decide +kernel
    · rcases List.mem_append.mp (List.mem_of_ne_of_mem (by decide) index) with inside | closing
      · exact digit _ (by decide) inside
      · revert closing
        decide
  have front : Bytes.ofString (corePath ++ ".Connectivity[") =
      groups.text ++ 0x2E :: (cores.text ++ 0x2E :: (name ++ [0x5B])) := by decide +kernel
  have text : Bytes.ofString (corePath ++ ".Connectivity[" ++ toString digits.value ++ tail) =
      groups.text ++ 0x2E :: (cores.text ++ 0x2E :: (piece ++ 0x2E :: leaf.text)) := by
    rw [Bytes.ofString_append, Bytes.ofString_append, front, spelled, ← Decimal.spell, ← same]
    simp only [piece, List.append_assoc, List.cons_append, List.nil_append]
  have dotless : groups.text.head? = some 0x47 := by decide +kernel
  rw [text, Path.parse?_of_head (by rw [List.head?_append, dotless]; exact nofun),
    Bytes.splitAt_append (Path.clear_text groups), Bytes.splitAt_append (Path.clear_text cores),
    Bytes.splitAt_append clear, List.mapM_cons, List.mapM_cons, List.mapM_cons, refused,
    Path.part?_text, Path.part?_text]
  rfl

def hostField : Path.Part := field "HostAddress" [] (by decide +kernel) (by decide +kernel)
def portField : Path.Part := field "PortNumber" [] (by decide +kernel) (by decide +kernel)

theorem spelled_hostField : Bytes.ofString "].HostAddress" = 0x5D :: 0x2E :: hostField.text := by
  decide +kernel

theorem spelled_portField : Bytes.ofString "].PortNumber" = 0x5D :: 0x2E :: portField.text := by
  decide +kernel

theorem parse?_hostPath {index : Nat} (fits : index < Decimal.wordLimit) :
    Path.parse? (.ofString (hostPath index)) = some (hostSteps index) := by
  have read := parse?_entry fits spelled_hostField
  rw [hostField, steps_field] at read
  exact read

theorem parse?_hostPath_large {index : Nat} (large : Decimal.wordLimit ≤ index) :
    Path.parse? (.ofString (hostPath index)) = none := parse?_entry_large large spelled_hostField

theorem parse?_portPath {index : Nat} (fits : index < Decimal.wordLimit) :
    Path.parse? (.ofString (portPath index)) = some (portSteps index) := by
  have read := parse?_entry fits spelled_portField
  rw [portField, steps_field] at read
  exact read

end Paths

section Documents
variable {document : Bytes}

/-- The documents are the texts that the grammar builds. -/
theorem validate_iff : validate document = .ok () ↔ ∃ source : Source, source.text = document := by
  rw [← accepted_iff, Utf8.isText_iff]
  unfold validate
  constructor
  · intro valid
    split at valid
    · contradiction
    · next chars decoded =>
      split at valid
      · contradiction
      · next accepted => exact ⟨⟨chars, decoded⟩, accepted⟩
  · rintro ⟨⟨chars, decoded⟩, accepted⟩
    rw [decoded, accepted]

/-- What stands at the end of some steps through a text. -/
def follow? (document : Bytes) (steps : Path) : Option Bytes :=
  (steps.foldlM Slice.step? (.whole document)).map (·.unquote.text)

theorem search?_of_parse {path : String} {steps : Path}
    (parsed : Path.parse? (.ofString path) = some steps) :
    search? document path = follow? document steps := by
  rw [search?, Json.search?, parsed, follow?, Option.bind_eq_bind, Option.bind_some]
  cases steps.foldlM Slice.step? (.whole document) <;> rfl

/-- What stands at a path is what a value at the end of its steps has to say. -/
theorem search?_steps {path : String} {steps : Path} (source : Source)
    (parsed : Path.parse? (.ofString path) = some steps) :
    search? source.text path = source.content? steps := by
  obtain ⟨written, same, rfl⟩ := Path.parse?_eq_some.mp parsed
  rw [search?, ← same, search?_reached, Source.content?, Option.map_map, Option.map_map]
  congr 1
  funext place
  exact text_slice place

end Documents

end Document
end CoreLocator
