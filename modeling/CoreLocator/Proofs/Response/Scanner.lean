import CoreLocator.Proofs.Response.Head

/-! What a scan says after each byte, read off the bytes alone: nothing before the field name has
come, then the length in what stands behind the name, up to the first blank line or to the width of
the capture, and the end of the head at that blank line. -/
namespace CoreLocator.Response

/-- How many bytes it takes to the first hit. -/
def FieldMatcher.firstHit? (m : FieldMatcher) : Bytes → Option Nat
  | [] => none
  | b :: s => if (m.push b).1 then some 1 else ((m.push b).2.firstHit? s).map (· + 1)

/-- What is said after each byte. -/
def HeadScanner.answers (scanner : HeadScanner) : Bytes → List (Except ResponseDefect Scan)
  | [] => []
  | b :: s => (scanner.push b).1 :: (scanner.push b).2.answers s

/-- The first blank line ends behind so many bytes. -/
structure FirstBlankLine (s : Bytes) (size : Nat) : Prop where
  within : size ≤ s.length
  ends : Bytes.blankLine <:+ s.take size
  first : ∀ n < size, ¬Bytes.blankLine <:+ s.take n

/-- So many times more is needed. -/
def more (count : Nat) : List (Except ResponseDefect Scan) := List.replicate count (.ok .needMore)

/-- So many times the head is complete. -/
def complete (count contentLength : Nat) : List (Except ResponseDefect Scan) :=
  List.replicate count (.ok (.complete ⟨contentLength⟩))

theorem length_more (count : Nat) : (more count).length = count := List.length_replicate

theorem more_add (front back : Nat) : more (front + back) = more front ++ more back :=
  List.replicate_append_replicate.symm

/-- A blank line takes bytes. -/
theorem FirstBlankLine.exists_succ {s : Bytes} {size : Nat} (blank : FirstBlankLine s size) :
    ∃ k, size = k + 1 := by
  cases size with
  | zero =>
    have ended := blank.ends
    rw [List.take_zero] at ended
    exact absurd (List.suffix_nil.mp ended) (by decide)
  | succ k => exact ⟨k, rfl⟩

/-- Up to the first place where one ends there is no blank line. -/
theorem exists_firstBlankLine {s : Bytes} {n : Nat} (within : n ≤ s.length)
    (ended : Bytes.blankLine <:+ s.take n) : ∃ size ≤ n, FirstBlankLine s size := by
  induction n using Nat.strongRecOn with
  | ind n ih =>
    by_cases earlier : ∃ m < n, Bytes.blankLine <:+ s.take m
    · obtain ⟨m, less, ended⟩ := earlier
      obtain ⟨size, bound, blank⟩ := ih m less (by omega) ended
      exact ⟨size, by omega, blank⟩
    · refine ⟨n, Nat.le_refl n, within, ended, ?_⟩
      intro m less shown
      exact earlier ⟨m, less, shown⟩

namespace ScanState
variable {state after : ScanState} {bytes s t : Bytes} {size : Nat}

def answers (state : ScanState) : Bytes → List (Except ResponseDefect Scan)
  | [] => []
  | b :: s => ((state.push b).1.map fun _ => (state.push b).2.scan) :: (state.push b).2.answers s

theorem answers_passes (passes : Passes state bytes after) (rest : Bytes) :
    state.answers (bytes ++ rest) = more bytes.length ++ after.answers rest := by
  induction passes with
  | done => rfl
  | @byte state middle _ b _ pushed needed _ ih =>
    have said : ((state.push b).1.map fun _ => (state.push b).2.scan) = .ok .needMore := by
      rw [pushed]
      exact congrArg Except.ok needed
    rw [List.cons_append, answers, said, pushed, ih]
    rfl

theorem answers_done (head : Head) (s : Bytes) :
    (done head).answers s = complete s.length head.contentLength := by
  induction s with
  | nil => rfl
  | cons b s ih =>
    rw [answers]
    exact congrArg _ ih

/-- The state when these bytes have come. -/
def pushAll (state : ScanState) (s : Bytes) : ScanState :=
  s.foldl (fun state b => (state.push b).2) state

theorem pushAll_append (state : ScanState) (front back : Bytes) :
    state.pushAll (front ++ back) = (state.pushAll front).pushAll back :=
  List.foldl_append

theorem answers_append (state : ScanState) (front back : Bytes) :
    state.answers (front ++ back) = state.answers front ++ (state.pushAll front).answers back := by
  induction front generalizing state with
  | nil => rfl
  | cons b front ih => exact congrArg _ (ih (state.push b).2)

theorem length_answers (state : ScanState) (s : Bytes) : (state.answers s).length = s.length := by
  induction s generalizing state with
  | nil => rfl
  | cons b s ih => exact congrArg Nat.succ (ih (state.push b).2)

theorem Passes.pushAll (passes : Passes state bytes after) : state.pushAll bytes = after := by
  induction passes with
  | done => rfl
  | byte pushed _ _ ih => rwa [ScanState.pushAll, List.foldl_cons, pushed]

section Field
variable {m : FieldMatcher} {i : Nat}

theorem passes_of_miss (missed : m.firstHit? s = none) : ∃ m', Passes (field m) s (field m') := by
  induction s generalizing m with
  | nil => exact ⟨m, .done⟩
  | cons b s ih =>
    rw [FieldMatcher.firstHit?] at missed
    split at missed
    · contradiction
    · next miss =>
      obtain ⟨m', passes⟩ := ih (Option.map_eq_none_iff.mp missed)
      refine ⟨m', .byte ?_ rfl passes⟩
      rw [push]
      split
      · next found => rw [found] at miss; contradiction
      · next found => rw [found]

theorem passes_of_hit (hit : m.firstHit? s = some i) :
    i ≤ s.length ∧ Passes (field m) (s.take i) (behind []) := by
  induction s generalizing m i with
  | nil => contradiction
  | cons b s ih =>
    rw [FieldMatcher.firstHit?] at hit
    split at hit
    · next now =>
      obtain rfl := Option.some.inj hit
      refine ⟨Nat.succ_le_succ (Nat.zero_le _), .byte ?_ rfl .done⟩
      rw [push]
      split
      · rfl
      · next found => rw [found] at now; contradiction
    · next miss =>
      obtain ⟨n, later, rfl⟩ := Option.map_eq_some_iff.mp hit
      obtain ⟨inside, passes⟩ := ih later
      refine ⟨Nat.succ_le_succ inside, ?_⟩
      rw [List.take_succ_cons]
      refine .byte ?_ rfl passes
      rw [push]
      split
      · next found => rw [found] at miss; contradiction
      · next found => rw [found]

end Field

section Value
variable {n k : Nat}

/-- Where no blank line ends behind so many bytes or fewer, none ends in any part of them. -/
theorem quiet_of_take (quiet : ∀ n ≤ k, ¬Bytes.blankLine <:+ t.take n) (part : Bytes)
    (inside : part <+: t.take k) : ¬Bytes.blankLine <:+ part := by
  intro ended
  have whole := List.prefix_iff_eq_take.mp (inside.trans (List.take_prefix k t))
  have short := inside.length_le
  rw [List.length_take] at short
  apply quiet part.length (by omega)
  rw [← whole]
  exact ended

/-- Without a blank line, and with a length in the capture as soon as it is full, nothing is
decided. -/
theorem answers_quiet (within : k ≤ t.length) (quiet : ∀ n ≤ k, ¬Bytes.blankLine <:+ t.take n)
    (valid : captureWidth ≤ k → Decimal.leading (t.take captureWidth) ≠ 0) :
    (behind []).answers t = more k ++ (behind (t.take k)).answers (t.drop k) := by
  have size : (t.take k).length = k := List.length_take_of_le within
  have passes : Passes (behind []) (t.take k) (behind (t.take k)) := by
    apply passes_quiet [] (t.take k)
    · rw [List.nil_append]
      exact quiet_of_take quiet
    · intro wide
      rw [List.nil_append] at wide ⊢
      rw [size] at wide
      rw [List.take_take, Nat.min_eq_left wide]
      exact valid wide
  have said := answers_passes passes (t.drop k)
  rw [List.take_append_drop, size] at said
  exact said

theorem push_behind_refused {b : UInt8} (narrow : bytes.length < captureWidth)
    (decided : Bytes.blankLine <:+ bytes ++ [b] ∨ bytes.length + 1 = captureWidth)
    (zero : Decimal.leading (bytes ++ [b]) = 0) :
    ((behind bytes).push b).1 = .error .lengthUnreadable := by
  have refused : checkedLength 0 = .error .lengthUnreadable := rfl
  have full : (decide (Bytes.blankLine <:+ bytes ++ [b]) ||
      (bytes ++ [b]).length == captureWidth) = true := by
    rw [List.length_append, List.length_singleton]
    simpa using decided
  simp only [behind, if_pos narrow, push, BoundaryWindow.push_ofBytes, full, if_true, zero, refused]

/-- The length is looked for in the bytes up to the first blank line or in those that the capture
takes, and refused if there is none. -/
theorem answers_refused (within : k < t.length) (narrow : k < captureWidth)
    (quiet : ∀ n ≤ k, ¬Bytes.blankLine <:+ t.take n)
    (decided : Bytes.blankLine <:+ t.take (k + 1) ∨ k + 1 = captureWidth)
    (zero : Decimal.leading (t.take (k + 1)) = 0) :
    ((behind []).answers t).take (k + 1) = more k ++ [.error .lengthUnreadable] := by
  have size : (t.take k).length = k := List.length_take_of_le (Nat.le_of_lt within)
  have wide : captureWidth ≤ k → Decimal.leading (t.take captureWidth) ≠ 0 := by omega
  rw [List.take_succ_eq_append_getElem within] at decided zero
  have refused := push_behind_refused (size.symm ▸ narrow) (size.symm ▸ decided) zero
  rw [answers_quiet (Nat.le_of_lt within) quiet wide, List.drop_eq_getElem_cons within, answers,
    refused]
  rw [more, List.take_append, List.length_replicate, List.take_of_length_le (by simp),
    Nat.add_sub_cancel_left]
  rfl

/-- With a length in the capture the head is complete where the first blank line ends, and stays
so. -/
theorem answers_ended (within : k < t.length) (quiet : ∀ n ≤ k, ¬Bytes.blankLine <:+ t.take n)
    (ended : Bytes.blankLine <:+ t.take (k + 1))
    (valid : Decimal.leading ((t.take (k + 1)).take captureWidth) ≠ 0) :
    (behind []).answers t = more k ++
      complete (t.length - k) (Decimal.leading ((t.take (k + 1)).take captureWidth)) := by
  have size : (t.take k).length = k := List.length_take_of_le (Nat.le_of_lt within)
  have wide : captureWidth ≤ k → Decimal.leading (t.take captureWidth) ≠ 0 := by
    intro wide
    rw [List.take_take, Nat.min_eq_left (Nat.le_succ_of_le wide)] at valid
    exact valid
  have checked := checkedLength_capture (List.length_take_le captureWidth (t.take (k + 1)))
  rw [if_neg valid] at checked
  rw [answers_quiet (Nat.le_of_lt within) quiet wide, List.drop_eq_getElem_cons within, answers]
  rw [List.take_succ_eq_append_getElem within] at ended checked ⊢
  rw [push_behind_end ended checked, answers_done, List.length_drop]
  have count : t.length - k = t.length - (k + 1) + 1 := by omega
  rw [count]
  rfl

end Value

end ScanState

namespace HeadScanner
open ScanState
variable {s : Bytes} {i size : Nat}

theorem answers_eq (scanner : HeadScanner) (s : Bytes) :
    scanner.answers s = scanner.state.answers s := by
  induction s generalizing scanner with
  | nil => rfl
  | cons b s ih =>
    rw [answers, ih]
    rfl

/-- The matcher that looks for the field, before any byte. -/
def fieldMatcher : FieldMatcher := { target := contentLengthField }

theorem answers_miss (missed : fieldMatcher.firstHit? s = none) :
    new.answers s = more s.length := by
  obtain ⟨m, passes⟩ := passes_of_miss missed
  have said := answers_passes passes []
  rw [List.append_nil] at said
  exact (answers_eq new s).trans (said.trans (List.append_nil _))

theorem answers_hit (hit : fieldMatcher.firstHit? s = some i) :
    i ≤ s.length ∧ new.answers s = more i ++ (behind []).answers (s.drop i) := by
  obtain ⟨inside, passes⟩ := passes_of_hit hit
  have said := answers_passes passes (s.drop i)
  rw [List.take_append_drop, List.length_take_of_le inside] at said
  exact ⟨inside, (answers_eq new s).trans said⟩

section Hit
variable {k n : Nat} (hit : fieldMatcher.firstHit? s = some i)
include hit

theorem answers_hit_refused {defect : ResponseDefect}
    (refused : ((behind []).answers (s.drop i)).take (k + 1) = more k ++ [.error defect]) :
    (new.answers s).take (i + (k + 1)) = more (i + (k + 1) - 1) ++ [.error defect] := by
  have front := @List.take_length_add_append _ (more i) ((behind []).answers (s.drop i)) (k + 1)
  rw [length_more] at front
  rw [(answers_hit hit).2, front, refused, ← List.append_assoc, ← more_add]
  rfl

theorem answers_hit_ended (ended : (behind []).answers (s.drop i) =
      more k ++ complete ((s.drop i).length - k) n) :
    new.answers s = more (i + (k + 1) - 1) ++ complete (s.length + 1 - (i + (k + 1))) n := by
  obtain ⟨inside, said⟩ := answers_hit hit
  have count : (s.drop i).length - k = s.length + 1 - (i + (k + 1)) := by
    rw [List.length_drop]
    omega
  rw [said, ended, count, ← List.append_assoc, ← more_add]
  rfl

theorem answers_hit_open (quiet : ∀ n ≤ (s.drop i).length, ¬Bytes.blankLine <:+ (s.drop i).take n)
    (valid : captureWidth ≤ (s.drop i).length →
      Decimal.leading ((s.drop i).take captureWidth) ≠ 0) :
    new.answers s = more s.length := by
  obtain ⟨inside, said⟩ := answers_hit hit
  have still := answers_quiet (Nat.le_refl _) quiet valid
  rw [List.drop_length] at still
  rw [said, still, ← List.append_assoc, ← more_add, List.length_drop, Nat.add_sub_cancel' inside]
  exact List.append_nil _

end Hit

/-- The scan of a stream says what the stream as a whole says. Before the field name has come more
is needed. The length is what starts the bytes behind it, up to the first blank line or as many as
the capture takes, whichever is less; it is refused where these bytes end, or the head is complete
with it where the blank line ends, and so it stays. -/
theorem answers_stream (s : Bytes) :
    (fieldMatcher.firstHit? s = none → new.answers s = more s.length) ∧
    ∀ i, fieldMatcher.firstHit? s = some i →
      (∀ e, FirstBlankLine (s.drop i) e → e ≤ captureWidth →
        let n := Decimal.leading ((s.drop i).take e)
        (n = 0 → (new.answers s).take (i + e) = more (i + e - 1) ++ [.error .lengthUnreadable]) ∧
        (n ≠ 0 → new.answers s = more (i + e - 1) ++ complete (s.length + 1 - (i + e)) n)) ∧
      ((∀ e, FirstBlankLine (s.drop i) e → captureWidth < e) →
        let n := Decimal.leading ((s.drop i).take captureWidth)
        ((s.drop i).length < captureWidth → new.answers s = more s.length) ∧
        (captureWidth ≤ (s.drop i).length → n = 0 →
          (new.answers s).take (i + captureWidth) =
            more (i + captureWidth - 1) ++ [.error .lengthUnreadable]) ∧
        (captureWidth ≤ (s.drop i).length → n ≠ 0 →
          (∀ e, FirstBlankLine (s.drop i) e →
            new.answers s = more (i + e - 1) ++ complete (s.length + 1 - (i + e)) n) ∧
          ((∀ e, ¬FirstBlankLine (s.drop i) e) → new.answers s = more s.length))) := by
  constructor
  · exact answers_miss
  · intro i hit
    constructor
    · intro e blank narrow
      obtain ⟨k, rfl⟩ := blank.exists_succ
      have quiet : ∀ n ≤ k, ¬Bytes.blankLine <:+ (s.drop i).take n :=
        fun n before => blank.first n (Nat.lt_succ_of_le before)
      constructor
      · intro zero
        exact answers_hit_refused hit
          (answers_refused blank.within narrow quiet (.inl blank.ends) zero)
      · intro nonzero
        have whole : ((s.drop i).take (k + 1)).take captureWidth = (s.drop i).take (k + 1) := by
          rw [List.take_take, Nat.min_eq_right narrow]
        have ended := answers_ended blank.within quiet blank.ends (whole.symm ▸ nonzero)
        rw [whole] at ended
        exact answers_hit_ended hit ended
    · intro late
      have quiet : ∀ n ≤ captureWidth, n ≤ (s.drop i).length →
          ¬Bytes.blankLine <:+ (s.drop i).take n := by
        intro n narrow within ended
        obtain ⟨e, before, blank⟩ := exists_firstBlankLine within ended
        exact absurd (late e blank) (by omega)
      refine ⟨?_, ?_, ?_⟩
      · intro short
        apply answers_hit_open hit
        · intro n within
          exact quiet n (by omega) within
        · intro wide
          omega
      · intro wide zero
        apply answers_hit_refused hit
        apply answers_refused wide (Nat.lt_succ_self 9) _ (.inr rfl) zero
        intro n before
        have narrow : n ≤ captureWidth := Nat.le_succ_of_le before
        exact quiet n narrow (Nat.le_trans narrow wide)
      · intro wide nonzero
        constructor
        · intro e blank
          obtain ⟨k, rfl⟩ := blank.exists_succ
          have part : ((s.drop i).take (k + 1)).take captureWidth =
              (s.drop i).take captureWidth := by
            rw [List.take_take, Nat.min_eq_left (Nat.le_of_lt (late _ blank))]
          have before : ∀ n ≤ k, ¬Bytes.blankLine <:+ (s.drop i).take n :=
            fun n before => blank.first n (Nat.lt_succ_of_le before)
          have ended := answers_ended blank.within before blank.ends (part.symm ▸ nonzero)
          rw [part] at ended
          exact answers_hit_ended hit ended
        · intro unended
          apply answers_hit_open hit
          · intro n within ended
            obtain ⟨e, -, blank⟩ := exists_firstBlankLine within ended
            exact unended e blank
          · intro _
            exact nonzero

/-- The field with the length seven, a blank line, and one byte of a body. -/
def seven : Bytes := contentLengthField ++ [0x37, 0x0D, 0x0A, 0x0D, 0x0A, 0x78]

/-- The head is complete with the fifth byte behind the name, and stays so. -/
theorem answers_stream_seven : fieldMatcher.firstHit? seven = some 15 ∧
    FirstBlankLine (seven.drop 15) 5 ∧ new.answers seven = more 19 ++ complete 2 7 := by
  have hit : fieldMatcher.firstHit? seven = some 15 := by decide +kernel
  have blank : FirstBlankLine (seven.drop 15) 5 := by
    refine ⟨?_, ?_, ?_⟩ <;> decide +kernel
  have length : Decimal.leading ((seven.drop 15).take 5) = 7 := by decide +kernel
  obtain ⟨early, -⟩ := (answers_stream seven).2 15 hit
  have complete := (early 5 blank (by decide)).2 (by rw [length]; decide)
  rw [length] at complete
  exact ⟨hit, blank, complete⟩

end HeadScanner
end CoreLocator.Response
