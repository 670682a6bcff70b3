import CoreLocator.Proofs.Document

/-! The language of paths. A text is read as a path exactly if it is put together as one, and the
lists of steps that come out are those that can be printed: each of them is read back from its
printed form, and no other list is read from anything. -/
namespace CoreLocator.Json

/-- A step as a path shows it. A dot stands before a key unless the path begins with it. -/
def Step.print (first : Bool) : Step → Bytes
  | .key name => (if first then [] else [0x2E]) ++ name
  | .index n => 0x5B :: (Decimal.spell n ++ [0x5D])

def Path.print : Path → Bytes
  | [] => []
  | step :: later => step.print true ++ later.flatMap (Step.print false)

/-- A key that is not empty and shows where it ends, or a machine word. -/
def Step.Printable : Step → Prop
  | .key name => name ≠ [] ∧ ∀ b ∈ name, b ≠ 0x2E ∧ b ≠ 0x5B
  | .index n => n < Decimal.wordLimit

namespace Path

section Parts

theorem printable_part (part : Part) : ∀ step ∈ part.steps, step.Printable := by
  intro step member
  rcases List.mem_append.mp member with key | index
  · by_cases unnamed : part.name = []
    · rw [if_pos unnamed] at key
      contradiction
    · rw [if_neg unnamed, List.mem_singleton] at key
      exact key ▸ ⟨unnamed, part.plain⟩
  · obtain ⟨read, -, rfl⟩ := List.mem_map.mp index
    exact read.fits

theorem printable_steps (path : Written) : ∀ step ∈ path.steps, step.Printable := by
  intro step member
  obtain ⟨steps, among, inside⟩ := List.mem_flatten.mp member
  obtain ⟨part, -, rfl⟩ := List.mem_map.mp among
  exact printable_part part step inside

/-- An index as it is printed, without a sign and without zeros in front. -/
theorem exists_index {n : Nat} (fits : n < Decimal.wordLimit) : ∃ index : Index,
    index.text = (Step.index n).print false ∧ index.digits.value = n := by
  obtain ⟨digits, spelled, rfl⟩ := Decimal.exists_digits_spell n
  refine ⟨⟨false, digits, fits⟩, ?_, rfl⟩
  rw [Index.text, spelled]
  rfl

/-- Steps that come behind others: indices that belong to the part before them, and then whole
parts, each with a dot before it. -/
theorem exists_parts {steps : Path} (printable : ∀ step ∈ steps, step.Printable) :
    ∃ (indices : List Index) (parts : List Part),
      indices.flatMap Index.text ++ parts.flatMap (fun part => 0x2E :: part.text) =
        steps.flatMap (Step.print false) ∧
      (indices.map fun index => .index index.digits.value) ++ (parts.map Part.steps).flatten =
        steps := by
  induction steps with
  | nil => exact ⟨[], [], rfl, rfl⟩
  | cons step steps ih =>
    obtain ⟨indices, parts, text, same⟩ := ih fun other member =>
      printable other (List.mem_cons_of_mem _ member)
    have now := printable step List.mem_cons_self
    cases step with
    | key name =>
      obtain ⟨named, plain⟩ := now
      refine ⟨[], ⟨name, indices, plain, .inl named⟩ :: parts, ?_, ?_⟩
      · rw [List.flatMap_cons (f := Step.print false), ← text]
        simp [Part.text, Step.print]
      · rw [← same]
        simp [Part.steps, named]
    | index n =>
      obtain ⟨index, shown, rfl⟩ := exists_index now
      refine ⟨index :: indices, parts, ?_, ?_⟩
      · rw [List.flatMap_cons (f := Step.print false), ← text, ← shown, List.flatMap_cons,
          List.append_assoc]
      · rw [List.map_cons, List.cons_append, same]

end Parts

theorem exists_written_print {steps : Path} (nonempty : steps ≠ [])
    (printable : ∀ step ∈ steps, step.Printable) :
    ∃ path : Written, path.text = steps.print ∧ path.steps = steps := by
  obtain ⟨step, later, rfl⟩ := List.exists_cons_of_ne_nil nonempty
  obtain ⟨indices, parts, text, same⟩ := exists_parts fun other member =>
    printable other (List.mem_cons_of_mem step member)
  have now := printable step List.mem_cons_self
  have first : ∃ part : Part, part.text = step.print true ++ indices.flatMap Index.text ∧
      part.steps = step :: indices.map fun index => .index index.digits.value := by
    cases step with
    | key name =>
      obtain ⟨named, plain⟩ := now
      exact ⟨⟨name, indices, plain, .inl named⟩, rfl, by rw [Part.steps, if_neg named]; rfl⟩
    | index n =>
      obtain ⟨index, shown, rfl⟩ := exists_index now
      have plain (b : UInt8) (member : b ∈ ([] : Bytes)) : b ≠ 0x2E ∧ b ≠ 0x5B :=
        absurd member List.not_mem_nil
      refine ⟨⟨[], index :: indices, plain, .inr (List.cons_ne_nil _ _)⟩, ?_, rfl⟩
      exact congrArg (· ++ indices.flatMap Index.text) shown
  obtain ⟨part, shown, taken⟩ := first
  refine ⟨⟨false, part, parts⟩, ?_, ?_⟩
  · rw [Written.text, Bytes.join, print, ← text, shown, List.flatMap_map]
    simp only [Bool.false_eq_true, if_false, List.nil_append, List.append_assoc]
  · rw [Written.steps, List.map_cons, List.flatten_cons, taken, List.cons_append, same]

/-- Reading gives back exactly what can be printed. -/
theorem parse?_print {steps : Path} : parse? steps.print = some steps ↔
    steps ≠ [] ∧ ∀ step ∈ steps, step.Printable := by
  rw [parse?_eq_some]
  constructor
  · rintro ⟨path, -, rfl⟩
    exact ⟨steps_ne_nil path, printable_steps path⟩
  · rintro ⟨nonempty, printable⟩
    exact exists_written_print nonempty printable

example : parse? (.ofString "[0].a[12][3].b") =
    some [.index 0, .key (.ofString "a"), .index 12, .index 3, .key (.ofString "b")] := by
  decide +kernel

end Path
end CoreLocator.Json

namespace CoreLocator.Document
open Json

/-- A text is a path if, behind at most one dot, it is made of parts with dots between them, each a
key and indices of which only one may be missing; its steps are those keys and numbers in their
order, and there is one at least. Every list of such steps is read back from its printed form, and
only such lists are. The paths to the entries of the connectivity list are among them, for every
index that is a machine word. -/
theorem path_language :
    (∀ text steps, Path.parse? text = some steps ↔
      ∃ path : Path.Written, path.text = text ∧ path.steps = steps) ∧
    (∀ path : Path.Written, path.steps ≠ []) ∧
    (∀ steps : Path, Path.parse? steps.print = some steps ↔
      steps ≠ [] ∧ ∀ step ∈ steps, step.Printable) ∧
    ∀ index : UInt64,
      Path.parse? (.ofString (hostPath index.toNat)) = some [key "GGGroups", .index 0, key "Cores",
        .index 0, key "Connectivity", .index index.toNat, key "HostAddress"] ∧
      Path.parse? (.ofString (portPath index.toNat)) = some [key "GGGroups", .index 0, key "Cores",
        .index 0, key "Connectivity", .index index.toNat, key "PortNumber"] :=
  ⟨fun _ _ => Path.parse?_eq_some, Path.steps_ne_nil, fun _ => Path.parse?_print,
    fun index => ⟨parse?_hostPath index.toNat_lt, parse?_portPath index.toNat_lt⟩⟩

end CoreLocator.Document
