import CoreLocator.Proofs.Response.Declared

/-! What can come behind a length that was refused. The scan does not leave its place, so the bytes
that follow are still put behind those captured. Where these are blanks only, and the capture has
room, a number among the bytes that follow is taken for the length after all. -/
namespace CoreLocator.Response

namespace ScanState
variable {state after : ScanState} {seen s : Bytes} {n : Nat}

/-- A refusal leaves the state following the bytes, which hold no length. -/
theorem Follows.refused {defect : ResponseDefect} (follows : Follows seen state)
    (last : (state.answers s).getLast? = some (.error defect)) :
    Follows (seen ++ s) (state.pushAll s) ∧
      Decimal.leading ((seen ++ s).take captureWidth) = 0 ∧
      (Bytes.blankLine <:+ seen ++ s ∨ captureWidth ≤ (seen ++ s).length) := by
  induction s generalizing seen state with
  | nil => contradiction
  | cons b s ih =>
    have told := follows.push b
    have next : state.pushAll (b :: s) = (state.push b).2.pushAll s := rfl
    rw [answers] at last
    rw [next, List.append_cons]
    generalize (state.push b).1 = outcome at told last
    generalize (state.push b).2 = after at told last
    cases s with
    | nil =>
      have now := Option.some.inj last
      rw [List.append_nil]
      cases told with
      | more _ follows => rw [follows.scan] at now; contradiction
      | refused zero reason follows => exact ⟨follows, zero, reason⟩
      | complete => contradiction
    | cons c s =>
      have later : (after.answers (c :: s)).getLast? = some (.error defect) := last
      cases told with
      | more _ follows => exact ih follows later
      | refused _ _ follows => exact ih follows later
      | complete =>
        rw [answers_done] at later
        have impossible := List.eq_of_mem_replicate (List.mem_of_getLast? later)
        contradiction

theorem Follows.exists_complete (follows : Follows seen state) (inside : n < s.length)
    (ended : Bytes.blankLine <:+ seen ++ s.take (n + 1))
    (nonzero : Decimal.leading ((seen ++ s.take (n + 1)).take captureWidth) ≠ 0) :
    ∃ head, .ok (.complete head) ∈ state.answers s := by
  induction s generalizing seen state n with
  | nil => contradiction
  | cons b s ih =>
    have told := follows.push b
    rw [answers]
    rw [List.take_succ_cons, List.append_cons] at ended nonzero
    generalize (state.push b).1 = outcome at told
    generalize (state.push b).2 = after at told
    have later (follows : Follows (seen ++ [b]) after) (more : n ≠ 0) :
        ∃ head, .ok (.complete head) ∈ (outcome.map fun _ => after.scan) :: after.answers s := by
      obtain ⟨k, rfl⟩ := Nat.exists_eq_succ_of_ne_zero more
      obtain ⟨head, member⟩ := ih follows (Nat.lt_of_succ_lt_succ inside) ended nonzero
      exact ⟨head, List.mem_cons_of_mem _ member⟩
    cases told with
    | more goesOn follows =>
      apply later follows
      rintro rfl
      rw [List.take_zero, List.append_nil] at ended
      exact goesOn ended
    | refused zero _ follows =>
      apply later follows
      rintro rfl
      rw [List.take_zero, List.append_nil] at nonzero
      exact nonzero zero
    | complete => exact ⟨_, List.mem_cons_self⟩

theorem Follows.exists_complete_iff (follows : Follows seen state) :
    (∃ head, .ok (.complete head) ∈ state.answers s) ↔ ∃ n < s.length,
      Bytes.blankLine <:+ seen ++ s.take (n + 1) ∧
        Decimal.leading ((seen ++ s.take (n + 1)).take captureWidth) ≠ 0 := by
  constructor
  · rintro ⟨head, member⟩
    obtain ⟨before, first, later, said, clear⟩ := HeadScanner.exists_first_complete member
    have completed := follows.completed said clear
    exact ⟨_, completed.within, completed.ended, completed.length ▸ completed.positive⟩
  · rintro ⟨n, inside, ended, nonzero⟩
    exact follows.exists_complete inside ended nonzero

end ScanState

section Capture
variable {seen : Bytes}

/-- What was captured up to a refusal has no length in it, and none comes of what follows unless
all of it is blank and leaves room. -/
theorem leading_capture_behind (zero : Decimal.leading (seen.take captureWidth) = 0)
    (reason : Bytes.blankLine <:+ seen ∨ captureWidth ≤ seen.length)
    (closed : ¬(seen.length < captureWidth ∧ ∀ b ∈ seen, Ascii.isSpace b = true)) (later : Bytes) :
    Decimal.leading ((seen ++ later).take captureWidth) = 0 := by
  by_cases wide : captureWidth ≤ seen.length
  · rwa [ScanState.take_captureWidth_append wide]
  · have narrow : seen.length < captureWidth := Nat.lt_of_not_le wide
    obtain ⟨front, rfl⟩ := reason.resolve_right wide
    -- The blank line is blank, so what is visible stands before it.
    have visible : ¬∀ b ∈ front, Ascii.isSpace b = true := by
      intro blank
      apply closed
      refine ⟨narrow, fun b member => ?_⟩
      rcases List.mem_append.mp member with member | member
      · exact blank b member
      · exact List.all_eq_true.mp (by decide : Bytes.blankLine.all Ascii.isSpace = true) b member
    have ended (s : Bytes) : Decimal.leading (front ++ Bytes.blankLine ++ s) =
        Decimal.leading front := by
      rw [List.append_assoc]
      exact Decimal.leading_blank visible (by decide) _
    rw [List.take_of_length_le (Nat.le_of_lt narrow), ← List.append_nil (front ++ _), ended] at zero
    rw [List.take_append, List.take_of_length_le (Nat.le_of_lt narrow), ended]
    exact zero

theorem exists_length_behind (narrow : seen.length < captureWidth)
    (blank : ∀ b ∈ seen, Ascii.isSpace b = true) : ∃ later : Bytes, ∃ n < later.length,
      Bytes.blankLine <:+ seen ++ later.take (n + 1) ∧
        Decimal.leading ((seen ++ later.take (n + 1)).take captureWidth) ≠ 0 := by
  refine ⟨0x31 :: Bytes.blankLine, 4, by decide, ?_, ?_⟩
  · exact ⟨seen ++ [0x31], by rw [List.append_assoc]; rfl⟩
  · obtain ⟨room, width⟩ : ∃ room, captureWidth = seen.length + (room + 1) :=
      ⟨captureWidth - seen.length - 1, by omega⟩
    have ends : ∀ b ∈ (Bytes.blankLine.take room).head?, Ascii.isDigit b = false := by
      cases room with
      | zero => nofun
      | succ room =>
        rintro b same
        obtain rfl := Option.some.inj same
        rfl
    have one : Decimal.leading (0x31 :: Bytes.blankLine.take room) = 1 := by
      have read := Decimal.leading_spell (n := 1) (k := 0) (by decide) ends
      rwa [Decimal.spell_of_lt (by decide)] at read
    have taken : (0x31 :: Bytes.blankLine).take (4 + 1) = 0x31 :: Bytes.blankLine := rfl
    rw [taken, width, List.take_length_add_append, List.take_succ_cons,
      Decimal.leading_blanks blank, one]
    exact Nat.one_ne_zero

end Capture

namespace HeadScanner
open ScanState
variable {defect : ResponseDefect}

theorem exists_refused {name s : Bytes}
    (refused : ((ofField name).answers s).getLast? = some (.error defect)) :
    ∃ i, FieldMatcher.firstHit? { target := name } s = some i ∧
      Follows (s.drop i) ((ofField name).state.pushAll s) ∧
      Decimal.leading ((s.drop i).take captureWidth) = 0 ∧
      (Bytes.blankLine <:+ s.drop i ∨ captureWidth ≤ (s.drop i).length) := by
  rw [answers_eq] at refused
  cases hit : FieldMatcher.firstHit? { target := name } s with
  | none =>
    obtain ⟨m, passes⟩ := passes_of_miss hit
    have said := answers_passes passes []
    rw [List.append_nil] at said
    have member := List.mem_of_getLast? refused
    rw [ofField, said, ScanState.answers, List.append_nil] at member
    exact absurd member (not_mem_more _ (by simp) _)
  | some i =>
    obtain ⟨-, passes⟩ := passes_of_hit hit
    have said := answers_passes passes (s.drop i)
    rw [List.take_append_drop] at said
    rw [ofField, said, List.getLast?_append] at refused
    have last : ((behind []).answers (s.drop i)).getLast? = some (.error defect) := by
      cases behind : ((behind []).answers (s.drop i)).getLast? with
      | none =>
        rw [behind] at refused
        exact absurd (List.mem_of_getLast? refused) (not_mem_more _ (by simp) _)
      | some answer =>
        rw [behind] at refused
        exact refused
    have state : (ofField name).state.pushAll s = (behind []).pushAll (s.drop i) := by
      have parted := (ofField name).state.pushAll_append (s.take i) (s.drop i)
      rw [List.take_append_drop] at parted
      exact parted.trans (congrArg (ScanState.pushAll · (s.drop i)) passes.pushAll)
    rw [state]
    exact ⟨i, rfl, follows_behind.refused last⟩

theorem drop_answers_append (scanner : HeadScanner) (s later : Bytes) :
    (scanner.answers (s ++ later)).drop s.length = (scanner.state.pushAll s).answers later := by
  rw [answers_eq, answers_append]
  exact List.drop_left' (scanner.state.length_answers s)

/-- Behind a refusal a head is complete where a blank line ends and what has been captured by then
holds a length. That is possible if all that stood behind the name so far are blanks and they leave
room in the capture, and impossible otherwise. -/
theorem complete_behind_refusal (name s : Bytes)
    (refused : ((ofField name).answers s).getLast? = some (.error defect)) :
    ∃ i, FieldMatcher.firstHit? { target := name } s = some i ∧
      (∀ later, (∃ head, .ok (.complete head) ∈ ((ofField name).answers (s ++ later)).drop s.length)
        ↔ ∃ n < later.length, Bytes.blankLine <:+ s.drop i ++ later.take (n + 1) ∧
          Decimal.leading ((s.drop i ++ later.take (n + 1)).take captureWidth) ≠ 0) ∧
      ((∃ later head, .ok (.complete head) ∈ ((ofField name).answers (s ++ later)).drop s.length)
        ↔ (s.drop i).length < captureWidth ∧ ∀ b ∈ s.drop i, Ascii.isSpace b = true) := by
  obtain ⟨i, hit, follows, zero, reason⟩ := exists_refused refused
  refine ⟨i, hit, ?_, ?_⟩
  · intro later
    rw [drop_answers_append]
    exact follows.exists_complete_iff
  · simp only [drop_answers_append, follows.exists_complete_iff]
    constructor
    · rintro ⟨later, n, -, -, nonzero⟩
      apply Decidable.byContradiction
      intro closed
      exact nonzero (leading_capture_behind zero reason closed _)
    · rintro ⟨narrow, blank⟩
      exact exists_length_behind narrow blank

/-- A field without a length, and a head section that ends behind it. -/
def unannounced : Bytes := .ofString "content-length:\r\n\r\n"

def unreadable : Bytes := .ofString "content-length:x\r\n\r\n"

theorem complete_behind_refusal_unreadable :
    ¬∃ later head, .ok (.complete head) ∈
      ((ofField contentLengthField).answers (unreadable ++ later)).drop unreadable.length := by
  have refused : ((ofField contentLengthField).answers unreadable).getLast? =
      some (.error .lengthUnreadable) := by decide +kernel
  obtain ⟨i, hit, -, possible⟩ := complete_behind_refusal contentLengthField unreadable refused
  have place : fieldMatcher.firstHit? unreadable = some 15 := by decide +kernel
  obtain rfl := Option.some.inj (hit.symm.trans place)
  rw [possible]
  decide +kernel

/-- Behind the blank line the body is taken for a length. -/
theorem refusal_forgotten : ¬∀ (s later : Bytes) (defect : ResponseDefect),
    (new.answers s).getLast? = some (.error defect) →
      ∀ head, .ok (.complete head) ∉ (new.answers (s ++ later)).drop s.length := by
  intro final
  apply final unannounced (.ofString "5\r\n\r\n") .lengthUnreadable (by decide +kernel) ⟨5⟩
  decide +kernel

end HeadScanner
end CoreLocator.Response
