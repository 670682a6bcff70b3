import CoreLocator.Bytes

/-! Taking byte strings apart, at their ends and at separators, and putting them together again. -/
namespace CoreLocator.Bytes

variable {separator : UInt8} {s start tail front rest : Bytes}

theorem ofString_append (first second : String) :
    ofString (first ++ second) = ofString first ++ ofString second := by
  rw [ofString, String.toList_append, List.flatMap_append]
  rfl

theorem after?_eq_some : after? start s = some rest ↔ s = start ++ rest := by
  induction start generalizing s with
  | nil => exact Option.some_inj
  | cons a start ih =>
    cases s with
    | nil => simp [after?]
    | cons b s =>
      rw [after?, List.cons_append, List.cons.injEq]
      split
      · next same => rw [ih]; simp [same]
      · next other => simp [Ne.symm other]

theorem before?_eq_some : before? tail s = some front ↔ s = front ++ tail := by
  rw [before?, Option.map_eq_some_iff]
  simp only [after?_eq_some]
  constructor
  · rintro ⟨reversed, whole, rfl⟩
    rw [← List.reverse_reverse s, whole, List.reverse_append, List.reverse_reverse]
  · rintro rfl
    exact ⟨front.reverse, List.reverse_append, List.reverse_reverse front⟩

theorem cut?_append (clear : separator ∉ front) :
    cut? separator (front ++ separator :: rest) = some (front, rest) := by
  induction front with
  | nil => exact if_pos rfl
  | cons b front ih =>
    rw [List.mem_cons, not_or] at clear
    rw [List.cons_append, cut?, if_neg (Ne.symm clear.1), ih clear.2]
    rfl

theorem eq_of_cut? (cut : cut? separator s = some (front, rest)) :
    s = front ++ separator :: rest := by
  induction s generalizing front with
  | nil => contradiction
  | cons b s ih =>
    rw [cut?] at cut
    split at cut
    · next same =>
      obtain ⟨rfl, rfl⟩ := Prod.mk.inj (Option.some.inj cut)
      rw [same]
      rfl
    · obtain ⟨⟨front', rest'⟩, found, same⟩ := Option.map_eq_some_iff.mp cut
      obtain ⟨rfl, rfl⟩ := Prod.mk.inj same
      rw [ih found]
      rfl

/-- The pieces with a separator before each but the first. -/
def join (separator : UInt8) (first : Bytes) (more : List Bytes) : Bytes :=
  first ++ more.flatMap fun piece => separator :: piece

theorem splitAt_of_clear (clear : separator ∉ s) : splitAt separator s = [s] := by
  induction s with
  | nil => rfl
  | cons b s ih =>
    rw [List.mem_cons, not_or] at clear
    rw [splitAt, if_neg (Ne.symm clear.1), ih clear.2]

theorem splitAt_append (clear : separator ∉ front) :
    splitAt separator (front ++ separator :: rest) = front :: splitAt separator rest := by
  induction front with
  | nil => exact if_pos rfl
  | cons b front ih =>
    rw [List.mem_cons, not_or] at clear
    rw [List.cons_append, splitAt, if_neg (Ne.symm clear.1), ih clear.2]

/-- Pieces without separators are found again. -/
theorem splitAt_join {first : Bytes} {more : List Bytes}
    (clear : ∀ piece ∈ first :: more, separator ∉ piece) :
    splitAt separator (join separator first more) = first :: more := by
  induction more generalizing first with
  | nil =>
    rw [join, List.flatMap_nil, List.append_nil]
    exact splitAt_of_clear (clear first List.mem_cons_self)
  | cons piece more ih =>
    rw [join, List.flatMap_cons, List.cons_append, splitAt_append (clear first List.mem_cons_self)]
    exact congrArg _ (ih fun other member => clear other (List.mem_cons_of_mem _ member))

/-- Every text is its pieces, put together. -/
theorem join_splitAt (separator : UInt8) (s : Bytes) : ∃ first more,
    splitAt separator s = first :: more ∧ join separator first more = s ∧
      ∀ piece ∈ first :: more, separator ∉ piece := by
  induction s with
  | nil => exact ⟨[], [], rfl, rfl, by simp⟩
  | cons b s ih =>
    obtain ⟨first, more, split, joined, clear⟩ := ih
    by_cases same : b = separator
    · refine ⟨[], first :: more, ?_, ?_, ?_⟩
      · rw [splitAt, if_pos same, split]
      · rw [← joined, same]
        rfl
      · intro piece member
        rcases List.mem_cons.mp member with rfl | member
        · exact List.not_mem_nil
        · exact clear piece member
    · refine ⟨b :: first, more, ?_, ?_, ?_⟩
      · rw [splitAt, if_neg same, split]
      · rw [← joined]
        rfl
      · intro piece member
        rcases List.mem_cons.mp member with rfl | member
        · rw [List.mem_cons, not_or]
          exact ⟨Ne.symm same, clear first List.mem_cons_self⟩
        · exact clear piece (List.mem_cons_of_mem _ member)

end CoreLocator.Bytes
