import Mathlib.Data.List.TakeDrop
import Mathlib.Data.List.TakeWhile
import CoreLocator.Json.Path
import CoreLocator.Proofs.Bytes
import CoreLocator.Proofs.Decimal

/-! The texts that are paths, as they are put together, and that they are what is read as a path. -/
namespace CoreLocator.Json.Path

open Decimal (Digits)

/-- A bracketed index: a machine word in decimal, with at most one plus sign. -/
structure Index where
  plus : Bool
  digits : Digits
  fits : digits.value < Decimal.wordLimit

/-- What stands between two dots: a key and indices, of which only one may be missing. -/
structure Part where
  name : Bytes
  indices : List Index
  plain : ∀ b ∈ name, b ≠ 0x2E ∧ b ≠ 0x5B
  solid : name ≠ [] ∨ indices ≠ []

/-- A path as it is written, maybe with a dot in front. -/
structure Written where
  dotted : Bool
  first : Part
  more : List Part

def Index.text (index : Index) : Bytes :=
  0x5B :: ((if index.plus then [0x2B] else []) ++ index.digits.text ++ [0x5D])

def Part.text (part : Part) : Bytes := part.name ++ part.indices.flatMap Index.text

def Part.steps (part : Part) : Path :=
  (if part.name = [] then [] else [.key part.name])
    ++ part.indices.map fun index => .index index.digits.value

namespace Written

def text (path : Written) : Bytes :=
  (if path.dotted then [0x2E] else [])
    ++ Bytes.join 0x2E path.first.text (path.more.map Part.text)

def steps (path : Written) : Path := ((path.first :: path.more).map Part.steps).flatten

end Written

section Indices

/-- What a bracket holds ends at the next closing bracket. -/
theorem indices?_cons {s inner rest : Bytes} (cut : Bytes.cut? 0x5D s = some (inner, rest)) :
    indices? (0x5B :: s) =
      match Decimal.whole? Decimal.wordLimit inner, indices? rest with
      | some n, some steps => some (.index n :: steps)
      | _, _ => none := by
  rw [indices?.eq_def]
  dsimp only
  rw [if_pos rfl]
  split
  · next failed => rw [cut] at failed; contradiction
  · next same =>
    obtain ⟨rfl, rfl⟩ := Prod.mk.inj (Option.some.inj (cut.symm.trans same))
    rfl

theorem indices?_text (indices : List Index) :
    indices? (indices.flatMap Index.text) =
      some (indices.map fun index => .index index.digits.value) := by
  induction indices with
  | nil => rw [List.flatMap_nil, indices?]; rfl
  | cons index indices ih =>
    have read : Decimal.whole? Decimal.wordLimit
        ((if index.plus then [0x2B] else []) ++ index.digits.text) = some index.digits.value :=
      (Decimal.whole?_eq_some (by decide)).mpr ⟨_, _, rfl, rfl, index.fits⟩
    have clear : (0x5D : UInt8) ∉ (if index.plus then [0x2B] else []) ++ index.digits.text := by
      intro member
      rcases List.mem_append.mp member with sign | digit
      · cases plus : index.plus <;> simp [plus] at sign
      · exact absurd (Decimal.isDigit_of_mem_text digit) (by decide)
    rw [List.flatMap_cons, Index.text, List.cons_append, List.append_assoc, List.singleton_append,
      indices?_cons (Bytes.cut?_append clear), read, ih]
    rfl

theorem exists_of_indices? {s : Bytes} {steps : Path} (read : indices? s = some steps) :
    ∃ indices : List Index, indices.flatMap Index.text = s ∧
      (indices.map fun index => .index index.digits.value) = steps := by
  fun_induction indices? s generalizing steps with
  | case1 =>
    obtain rfl := Option.some.inj read
    exact ⟨[], rfl, rfl⟩
  | case2 => contradiction
  | case3 s inner rest cut n later more number ih =>
    obtain rfl := Option.some.inj read
    obtain ⟨indices, rfl, same⟩ := ih more
    obtain ⟨plus, digits, rfl, rfl, fits⟩ := (Decimal.whole?_eq_some (by decide)).mp number
    refine ⟨⟨plus, digits, fits⟩ :: indices, ?_, congrArg _ same⟩
    rw [Bytes.eq_of_cut? cut, List.flatMap_cons, Index.text, List.cons_append,
      List.append_assoc _ [_]]
    rfl
  | case4 => contradiction
  | case5 => contradiction

end Indices

section Parts

theorem head_indices (indices : List Index) :
    ∀ b ∈ (indices.flatMap Index.text).head?, b = 0x5B := by
  cases indices with
  | nil => exact nofun
  | cons index indices =>
    intro b first
    exact (Option.some.inj first).symm

/-- A key ends at the first opening bracket. -/
theorem part?_named {name rest : Bytes} (clear : 0x5B ∉ name) (named : name ≠ []) :
    part? (name ++ 0x5B :: rest) = (indices? (0x5B :: rest)).map (.key name :: ·) := by
  have inside (b : UInt8) (member : b ∈ name) : (b != 0x5B) = true := by
    apply bne_iff_ne.mpr
    rintro rfl
    exact clear member
  have cut : (name ++ 0x5B :: rest).span (· != 0x5B) = (name, 0x5B :: rest) := by
    rw [List.span_eq_takeWhile_dropWhile, List.takeWhile_append_of_pos inside,
      List.dropWhile_append_of_pos inside]
    simp
  rw [part?, cut]
  cases name with
  | nil => contradiction
  | cons b name => rfl

theorem part?_text (part : Part) : part? part.text = some part.steps := by
  obtain ⟨name, indices, plain, solid⟩ := part
  have cut : (name ++ indices.flatMap Index.text).span (· != 0x5B) =
      (name, indices.flatMap Index.text) := by
    have inside (b : UInt8) (member : b ∈ name) : (b != 0x5B) = true :=
      bne_iff_ne.mpr (plain b member).2
    have boundary := head_indices indices
    rw [List.span_eq_takeWhile_dropWhile, List.takeWhile_append_of_pos inside,
      List.dropWhile_append_of_pos inside]
    generalize indices.flatMap Index.text = s at boundary
    cases s with
    | nil => simp
    | cons b s => simp [boundary b rfl]
  have read := indices?_text indices
  rw [part?, Part.text, cut, Part.steps]
  cases name with
  | nil =>
    cases indices with
    | nil => simp at solid
    | cons index indices => exact read
  | cons b name =>
    dsimp only
    rw [read, if_neg (List.cons_ne_nil b name)]
    rfl

theorem exists_of_part? {s : Bytes} {steps : Path} (clear : 0x2E ∉ s)
    (read : part? s = some steps) :
    ∃ part : Part, part.text = s ∧ part.steps = steps := by
  have parted : s.takeWhile (· != 0x5B) ++ s.dropWhile (· != 0x5B) = s :=
    List.takeWhile_append_dropWhile
  have plain (b : UInt8) (member : b ∈ s.takeWhile (· != 0x5B)) : b ≠ 0x2E ∧ b ≠ 0x5B := by
    constructor
    · rintro rfl
      exact clear (parted ▸ List.mem_append_left _ member)
    · exact bne_iff_ne.mp (List.mem_takeWhile_imp (p := (· != 0x5B)) member)
  rw [part?, List.span_eq_takeWhile_dropWhile] at read
  generalize s.takeWhile (· != 0x5B) = name at *
  generalize s.dropWhile (· != 0x5B) = brackets at *
  subst parted
  split at read
  · contradiction
  · next solid same =>
    obtain ⟨rfl, rfl⟩ := Prod.mk.inj same
    obtain ⟨indices, rfl, rfl⟩ := exists_of_indices? read
    refine ⟨⟨[], indices, plain, .inr ?_⟩, rfl, rfl⟩
    rintro rfl
    exact solid rfl
  · next solid same =>
    obtain ⟨rfl, rfl⟩ := Prod.mk.inj same
    obtain ⟨later, more, rfl⟩ := Option.map_eq_some_iff.mp read
    obtain ⟨indices, rfl, rfl⟩ := exists_of_indices? more
    refine ⟨⟨name, indices, plain, .inl solid⟩, rfl, ?_⟩
    rw [Part.steps, if_neg solid]
    rfl

/-- No dot stands inside a part. -/
theorem clear_text (part : Part) : 0x2E ∉ part.text := by
  intro member
  rcases List.mem_append.mp member with name | brackets
  · exact (part.plain _ name).1 rfl
  · obtain ⟨index, -, inside⟩ := List.mem_flatMap.mp brackets
    rw [Index.text, List.mem_cons, List.mem_append, List.mem_append] at inside
    rcases inside with opening | (sign | digit) | closing
    · contradiction
    · cases plus : index.plus <;> simp [plus] at sign
    · exact absurd (Decimal.isDigit_of_mem_text digit) (by decide)
    · simp at closing

theorem text_ne_nil (part : Part) : part.text ≠ [] := by
  obtain ⟨name, indices, plain, solid⟩ := part
  intro empty
  obtain ⟨rfl, brackets⟩ := List.append_eq_nil_iff.mp empty
  cases indices with
  | nil => simp at solid
  | cons index indices => exact List.cons_ne_nil _ _ brackets

theorem mapM_part?_text (parts : List Part) :
    (parts.map Part.text).mapM part? = some (parts.map Part.steps) := by
  induction parts with
  | nil => rfl
  | cons part parts ih =>
    rw [List.map_cons, List.mapM_cons, part?_text, ih]
    rfl

theorem exists_of_mapM_part? {pieces : List Bytes} {steps : List Path}
    (clear : ∀ piece ∈ pieces, 0x2E ∉ piece) (read : pieces.mapM part? = some steps) :
    ∃ parts : List Part, parts.map Part.text = pieces ∧ parts.map Part.steps = steps := by
  induction pieces generalizing steps with
  | nil =>
    obtain rfl := Option.some.inj read
    exact ⟨[], rfl, rfl⟩
  | cons piece pieces ih =>
    rw [List.mapM_cons] at read
    obtain ⟨first, one, read⟩ := Option.bind_eq_some_iff.mp read
    obtain ⟨later, more, same⟩ := Option.bind_eq_some_iff.mp read
    obtain rfl := Option.some.inj same
    obtain ⟨part, rfl, rfl⟩ := exists_of_part? (clear piece List.mem_cons_self) one
    have clear' (other : Bytes) (member : other ∈ pieces) : 0x2E ∉ other :=
      clear other (List.mem_cons_of_mem _ member)
    obtain ⟨parts, rfl, rfl⟩ := ih clear' more
    exact ⟨part :: parts, rfl, rfl⟩

end Parts

section Whole

/-- Only a leading dot is left out. -/
theorem parse?_of_head {text : Bytes} (dotless : text.head? ≠ some 0x2E) :
    parse? text = ((Bytes.splitAt 0x2E text).mapM part?).map List.flatten := by
  cases text with
  | nil => rfl
  | cons b s =>
    have other : b ≠ 0x2E := fun same => dotless (congrArg some same)
    rw [parse?, if_neg other]

theorem parse?_text (path : Written) : parse? path.text = some path.steps := by
  obtain ⟨dotted, first, more⟩ := path
  have split : Bytes.splitAt 0x2E (Bytes.join 0x2E first.text (more.map Part.text)) =
      first.text :: more.map Part.text := by
    apply Bytes.splitAt_join
    intro piece member
    rw [← List.map_cons] at member
    obtain ⟨part, -, rfl⟩ := List.mem_map.mp member
    exact clear_text part
  have read : ((Bytes.splitAt 0x2E (Bytes.join 0x2E first.text (more.map Part.text))).mapM
      part?).map List.flatten = some ((first :: more).map Part.steps).flatten := by
    have read := mapM_part?_text (first :: more)
    rw [List.map_cons] at read
    rw [split, read, Option.map_some]
  rw [← Written.steps.eq_def ⟨dotted, first, more⟩] at read
  cases dotted with
  | true => exact read
  | false =>
    obtain ⟨b, s, same⟩ := List.exists_cons_of_ne_nil (text_ne_nil first)
    have dotless : (Bytes.join 0x2E first.text (more.map Part.text)).head? ≠ some 0x2E := by
      rw [Bytes.join, same]
      rintro ⟨⟩
      exact clear_text first (same ▸ List.mem_cons_self)
    rw [← read, ← parse?_of_head dotless]
    rfl

/-- A text is read as a path exactly when it is written as one, and then as its steps. -/
theorem parse?_eq_some {text : Bytes} {steps : Path} :
    parse? text = some steps ↔ ∃ path : Written, path.text = text ∧ path.steps = steps := by
  constructor
  · intro read
    obtain ⟨dotted, body, rfl, found⟩ : ∃ (dotted : Bool) (body : Bytes),
        text = (if dotted then [0x2E] else []) ++ body ∧
          ((Bytes.splitAt 0x2E body).mapM part?).map List.flatten = some steps := by
      cases text with
      | nil => exact ⟨false, [], rfl, read⟩
      | cons b s =>
        rw [parse?] at read
        by_cases dot : b = 0x2E
        · exact ⟨true, s, by rw [dot]; rfl, by rw [if_pos dot] at read; exact read⟩
        · exact ⟨false, b :: s, rfl, by rw [if_neg dot] at read; exact read⟩
    obtain ⟨piece, pieces, split, rfl, clear⟩ := Bytes.join_splitAt 0x2E body
    rw [split] at found
    obtain ⟨parted, each, rfl⟩ := Option.map_eq_some_iff.mp found
    obtain ⟨parts, same, rfl⟩ := exists_of_mapM_part? clear each
    cases parts with
    | nil => contradiction
    | cons first more =>
      obtain ⟨rfl, rfl⟩ := List.cons.inj same
      exact ⟨⟨dotted, first, more⟩, rfl, rfl⟩
  · rintro ⟨path, rfl, rfl⟩
    exact parse?_text path

theorem steps_ne_nil (path : Written) : path.steps ≠ [] := by
  intro empty
  have first := List.flatten_eq_nil_iff.mp empty path.first.steps List.mem_cons_self
  obtain ⟨unnamed, brackets⟩ := List.append_eq_nil_iff.mp first
  rcases path.first.solid with named | indexed
  · rw [if_neg named] at unnamed
    contradiction
  · exact indexed (List.map_eq_nil_iff.mp brackets)

end Whole

end CoreLocator.Json.Path
