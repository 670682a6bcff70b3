import CoreLocator.Proofs.Response.Scanner

/-! Where a scan first reports a complete head, carried on behind refused lengths too. A blank line
ends there, one behind the field name; that it is the first of the stream takes more, for nothing
before the name is looked at, and a length that is refused ends nothing. -/
namespace CoreLocator.Response

namespace ScanState
variable {state after : ScanState} {seen s : Bytes} {b : UInt8} {head : Head}

/-- The states in which these bytes have come behind the field name and no head is complete. What
the capture holds does not depend on refusals. -/
inductive Follows (seen : Bytes) : ScanState → Prop
  | capturing : Follows seen (length (seen.take captureWidth) (.ofBytes seen))
  | seeking : captureWidth ≤ seen.length → Decimal.leading (seen.take captureWidth) ≠ 0 →
      Follows seen (boundary (Decimal.leading (seen.take captureWidth)) (.ofBytes seen))

/-- What is said when the last of these bytes has come behind the field name. -/
inductive Told (seen : Bytes) : Except ResponseDefect Unit → ScanState → Prop
  | more {after : ScanState} : ¬Bytes.blankLine <:+ seen → Follows seen after →
      Told seen (.ok ()) after
  | refused {after : ScanState} {defect : ResponseDefect} :
      Decimal.leading (seen.take captureWidth) = 0 →
      Bytes.blankLine <:+ seen ∨ captureWidth ≤ seen.length → Follows seen after →
      Told seen (.error defect) after
  | complete : Bytes.blankLine <:+ seen → Decimal.leading (seen.take captureWidth) ≠ 0 →
      Told seen (.ok ()) (done ⟨Decimal.leading (seen.take captureWidth)⟩)

theorem follows_behind : Follows [] (behind []) := .capturing

theorem take_captureWidth_concat (seen : Bytes) (b : UInt8) :
    (if (seen.take captureWidth).length < captureWidth then seen.take captureWidth ++ [b]
      else seen.take captureWidth) = (seen ++ [b]).take captureWidth := by
  rw [List.length_take]
  split
  · next narrow =>
    rw [List.take_of_length_le (by omega),
      List.take_of_length_le (by rw [List.length_append, List.length_singleton]; omega)]
  · next full => rw [List.take_append_of_le_length (by omega)]

theorem Follows.push (follows : Follows seen state) (b : UInt8) :
    Told (seen ++ [b]) (state.push b).1 (state.push b).2 := by
  have window := BoundaryWindow.push_ofBytes seen b
  cases follows with
  | capturing =>
    have checked := checkedLength_capture (List.length_take_le captureWidth (seen ++ [b]))
    simp only [ScanState.push, take_captureWidth_concat, window]
    by_cases ended : Bytes.blankLine <:+ seen ++ [b]
    · rw [decide_eq_true ended, Bool.true_or, if_pos rfl, checked]
      by_cases zero : Decimal.leading ((seen ++ [b]).take captureWidth) = 0
      · rw [if_pos zero]
        exact .refused zero (.inl ended) .capturing
      · rw [if_neg zero]
        exact .complete ended zero
    · rw [decide_eq_false ended, Bool.false_or]
      by_cases full : ((seen ++ [b]).take captureWidth).length = captureWidth
      · have wide : captureWidth ≤ (seen ++ [b]).length := by
          rw [List.length_take] at full
          omega
        rw [if_pos (beq_iff_eq.mpr full), checked]
        by_cases zero : Decimal.leading ((seen ++ [b]).take captureWidth) = 0
        · rw [if_pos zero]
          exact .refused zero (.inr wide) .capturing
        · rw [if_neg zero]
          exact .more ended (.seeking wide zero)
      · rw [if_neg (by rw [beq_iff_eq]; exact full)]
        exact .more ended .capturing
  | seeking wide nonzero =>
    have kept : (seen ++ [b]).take captureWidth = seen.take captureWidth :=
      take_captureWidth_append wide [b]
    have wider : captureWidth ≤ (seen ++ [b]).length := by
      rw [List.length_append]
      omega
    rw [← kept] at nonzero ⊢
    simp only [ScanState.push, window]
    by_cases ended : Bytes.blankLine <:+ seen ++ [b]
    · rw [decide_eq_true ended]
      exact .complete ended nonzero
    · rw [decide_eq_false ended]
      exact .more ended (.seeking wider nonzero)

theorem Follows.scan (follows : Follows seen state) : state.scan = .needMore := by
  cases follows <;> rfl

/-- The first report of a complete head, behind these answers, while `s` comes behind `seen`. -/
structure Completed (seen s : Bytes) (before later : List (Except ResponseDefect Scan))
    (head : Head) : Prop where
  within : before.length < s.length
  ended : Bytes.blankLine <:+ seen ++ s.take (before.length + 1)
  length : head.contentLength =
    Decimal.leading ((seen ++ s.take (before.length + 1)).take captureWidth)
  positive : head.contentLength ≠ 0
  stays : later = complete later.length head.contentLength
  /-- What is refused before is refused at a blank line. -/
  refusals : (∃ defect, .error defect ∈ before) ↔
    ∃ n < before.length, Bytes.blankLine <:+ seen ++ s.take (n + 1)

theorem Completed.now (ended : Bytes.blankLine <:+ seen ++ [b])
    (positive : Decimal.leading ((seen ++ [b]).take captureWidth) ≠ 0) (s : Bytes) :
    Completed seen (b :: s) []
      (complete s.length (Decimal.leading ((seen ++ [b]).take captureWidth)))
      ⟨Decimal.leading ((seen ++ [b]).take captureWidth)⟩ where
  within := Nat.succ_pos _
  ended := ended
  length := rfl
  positive := positive
  stays := by rw [complete, List.length_replicate, complete]
  refusals := by simp

variable {before later : List (Except ResponseDefect Scan)}

/-- What is complete behind the next byte is complete here, one answer later. The next byte is
refused if a blank line ends there. -/
theorem Completed.deferred {said : Except ResponseDefect Scan}
    (completed : Completed (seen ++ [b]) s before later head)
    (refused : (∃ defect, said = .error defect) ↔ Bytes.blankLine <:+ seen ++ [b]) :
    Completed seen (b :: s) (said :: before) later head := by
  have read (n : Nat) : seen ++ (b :: s).take (n + 1) = seen ++ [b] ++ s.take n := by
    rw [List.take_succ_cons, List.append_assoc, List.singleton_append]
  refine ⟨Nat.succ_lt_succ completed.within, ?_, ?_, completed.positive, completed.stays, ?_⟩
  · rw [read]
    exact completed.ended
  · rw [read]
    exact completed.length
  · constructor
    · rintro ⟨defect, member⟩
      rcases List.mem_cons.mp member with same | member
      · refine ⟨0, Nat.succ_pos _, ?_⟩
        rw [read, List.take_zero, List.append_nil]
        exact refused.mp ⟨defect, same.symm⟩
      · obtain ⟨n, inside, ended⟩ := completed.refusals.mp ⟨defect, member⟩
        exact ⟨n + 1, Nat.succ_lt_succ inside, by rwa [read]⟩
    · rintro ⟨n, inside, ended⟩
      rw [read] at ended
      cases n with
      | zero =>
        rw [List.take_zero, List.append_nil] at ended
        obtain ⟨defect, same⟩ := refused.mpr ended
        exact ⟨defect, same ▸ List.mem_cons_self⟩
      | succ n =>
        obtain ⟨defect, member⟩ :=
          completed.refusals.mpr ⟨n, Nat.lt_of_succ_lt_succ inside, ended⟩
        exact ⟨defect, List.mem_cons_of_mem _ member⟩

theorem Follows.completed (follows : Follows seen state)
    (said : state.answers s = before ++ .ok (.complete head) :: later)
    (first : ∀ other, .ok (.complete other) ∉ before) : Completed seen s before later head := by
  induction s generalizing seen state before with
  | nil => exact absurd said.symm (by simp [answers])
  | cons b s ih =>
    have told := follows.push b
    rw [answers] at said
    generalize (state.push b).1 = outcome at told said
    generalize (state.push b).2 = next at told said
    cases before with
    | nil =>
      obtain ⟨now, rest⟩ := List.cons.inj said
      cases told with
      | more _ follows => rw [follows.scan] at now; simp [Except.map] at now
      | refused => simp [Except.map] at now
      | complete ended positive =>
        obtain rfl := Scan.complete.inj (Except.ok.inj now)
        rw [answers_done] at rest
        rw [← rest]
        exact .now ended positive s
    | cons answer before =>
      obtain ⟨now, rest⟩ := List.cons.inj said
      have first' (other : Head) : .ok (.complete other) ∉ before :=
        fun member => first other (List.mem_cons_of_mem _ member)
      cases told with
      | more goesOn follows =>
        refine (ih follows rest first').deferred ?_
        rw [← now]
        simp [Except.map, goesOn]
      | refused zero reason follows =>
        have completed := ih follows rest first'
        refine completed.deferred ⟨fun _ => ?_, fun _ => ⟨_, now.symm⟩⟩
        rcases reason with ended | wide
        · exact ended
        · -- A full capture without a length would keep the head from ever being complete.
          have length := completed.length
          rw [take_captureWidth_append wide, zero] at length
          exact absurd length completed.positive
      | complete =>
        exact absurd List.mem_cons_self (now ▸ first _)

end ScanState

section Field
variable {m : FieldMatcher} {seen s front rest : Bytes} {i n : Nat}

theorem FieldMatcher.suffix_of_firstHit? (follows : m.Follows seen)
    (hit : m.firstHit? s = some i) : m.target <:+ seen ++ s.take i := by
  induction s generalizing m seen i with
  | nil => contradiction
  | cons b s ih =>
    rw [firstHit?] at hit
    split at hit
    · next now =>
      obtain rfl := Option.some.inj hit
      exact follows.suffix_of_hit now
    · obtain ⟨n, later, rfl⟩ := Option.map_eq_some_iff.mp hit
      have found := ih (follows.push b) later
      rw [m.push_target, List.append_assoc, List.singleton_append] at found
      rwa [List.take_succ_cons]

theorem blankLine_behind {b : UInt8} (other : b ∉ Bytes.blankLine) (front s : Bytes) :
    Bytes.blankLine <:+ front ++ [b] ++ s ↔ Bytes.blankLine <:+ s := by
  constructor
  · intro ended
    by_cases room : Bytes.blankLine.length ≤ s.length
    · exact List.suffix_of_suffix_length_le ended (List.suffix_append _ s) room
    · have reaches : b :: s <:+ Bytes.blankLine := by
        refine List.suffix_of_suffix_length_le ?_ ended (by rw [List.length_cons]; omega)
        exact ⟨front, by rw [List.append_assoc, List.singleton_append]⟩
      exact absurd (reaches.subset List.mem_cons_self) other
  · intro ended
    exact ended.trans (List.suffix_append _ s)

/-- Behind the name of the field a blank line starts over. -/
theorem blankLine_behind_name (name : contentLengthField <:+ front) (s : Bytes) :
    Bytes.blankLine <:+ front ++ s ↔ Bytes.blankLine <:+ s := by
  obtain ⟨before, rfl⟩ := name
  have last : contentLengthField = contentLengthField.dropLast ++ [0x3A] := by decide +kernel
  rw [last, ← List.append_assoc]
  exact blankLine_behind (by decide) _ s

theorem ScanState.answers_unmatched {b : UInt8} (missed : m.firstHit? (b :: s) = none)
    (rest : Bytes) :
    (field m).answers (b :: rest) = .ok .needMore :: (field (m.push b).2).answers rest ∧
      (m.push b).2.firstHit? s = none := by
  rw [FieldMatcher.firstHit?] at missed
  split at missed
  · contradiction
  · next miss =>
    refine ⟨?_, Option.map_eq_none_iff.mp missed⟩
    have pushed : (field m).push b = (.ok (), field (m.push b).2) := by
      rw [push]
      split
      · next found => rw [found] at miss; contradiction
      · next found => rw [found]
    rw [answers, pushed]
    rfl

/-- Without a hit a byte that the name does not have leaves the search where it began. -/
theorem ScanState.answers_restarted {b : UInt8} (absent : b ∉ m.target)
    (missed : m.firstHit? (front ++ [b]) = none) (rest : Bytes) :
    (field m).answers (front ++ b :: rest) =
      more (front.length + 1) ++ (field { m with matched := 0 }).answers rest := by
  induction front generalizing m with
  | nil =>
    rw [List.nil_append, (answers_unmatched missed rest).1, FieldMatcher.push_of_not_mem absent]
    rfl
  | cons a front ih =>
    have same := m.push_target a
    obtain ⟨said, missed⟩ := answers_unmatched missed (front ++ b :: rest)
    have restarted := ih (same.symm ▸ absent) missed
    rw [List.cons_append, said, restarted, same]
    rfl

end Field

namespace HeadScanner
open ScanState
variable {s : Bytes} {before later : List (Except ResponseDefect Scan)} {head : Head}

theorem not_mem_more (answer : Except ResponseDefect Scan) (other : answer ≠ .ok .needMore)
    (count : Nat) : answer ∉ more count :=
  fun member => other (List.eq_of_mem_replicate member)

/-- A head is complete only behind a hit, and for the first time where a scan that starts behind the
name says so. -/
theorem exists_completed (said : new.answers s = before ++ .ok (.complete head) :: later)
    (first : ∀ other, .ok (.complete other) ∉ before) :
    ∃ i inner, fieldMatcher.firstHit? s = some i ∧ i ≤ s.length ∧ before = more i ++ inner ∧
      Completed [] (s.drop i) inner later head := by
  cases hit : fieldMatcher.firstHit? s with
  | none =>
    have member : .ok (.complete head) ∈ new.answers s := by
      rw [said]
      exact List.mem_append_right _ List.mem_cons_self
    rw [answers_miss hit] at member
    exact absurd member (not_mem_more _ (by simp) _)
  | some i =>
    obtain ⟨inside, answered⟩ := answers_hit hit
    rw [said] at answered
    obtain ⟨inner, front, rest⟩ | ⟨inner, front, rest⟩ := List.append_eq_append_iff.mp answered
    · cases inner with
      | nil =>
        rw [List.append_nil] at front
        refine ⟨i, [], rfl, inside, by rw [front, List.append_nil], ?_⟩
        exact follows_behind.completed rest.symm nofun
      | cons answer inner =>
        obtain ⟨same, -⟩ := List.cons.inj rest
        have member : .ok (.complete head) ∈ more i := by
          rw [front, same]
          exact List.mem_append_right _ List.mem_cons_self
        exact absurd member (not_mem_more _ (by simp) _)
    · refine ⟨i, inner, rfl, inside, front, follows_behind.completed rest fun other member => ?_⟩
      exact first other (front ▸ List.mem_append_right _ member)

theorem blankLine_take_iff {i n : Nat} (hit : fieldMatcher.firstHit? s = some i) (behind : i ≤ n) :
    Bytes.blankLine <:+ s.take n ↔ Bytes.blankLine <:+ (s.drop i).take (n - i) := by
  have follows : fieldMatcher.Follows [] := .start (by decide +kernel) rfl []
  have name : contentLengthField <:+ s.take i := FieldMatcher.suffix_of_firstHit? follows hit
  have parted : s.take n = s.take i ++ (s.drop i).take (n - i) := by
    rw [← List.take_add, Nat.add_sub_cancel' behind]
  rw [parted]
  exact blankLine_behind_name name _

theorem answers_without_field {size : Nat} (blank : FirstBlankLine s size)
    (missed : fieldMatcher.firstHit? (s.take size) = none) :
    new.answers s = more size ++ new.answers (s.drop size) := by
  obtain ⟨front, same⟩ := blank.ends
  have parted : s = front ++ [0x0D, 0x0A, 0x0D] ++ 0x0A :: s.drop size := by
    rw [List.append_cons, List.append_assoc _ _ [0x0A]]
    exact (List.take_append_drop size s).symm.trans (congrArg (· ++ s.drop size) same.symm)
  have length : (front ++ [0x0D, 0x0A, 0x0D]).length + 1 = size := by
    have length := congrArg List.length same
    rw [List.length_take_of_le blank.within] at length
    rw [← length]
    simp [Bytes.blankLine]
  have missed : fieldMatcher.firstHit? (front ++ [0x0D, 0x0A, 0x0D] ++ [0x0A]) = none := by
    rw [← same] at missed
    rwa [List.append_assoc]
  have restarted := answers_restarted (by decide +kernel) missed (s.drop size)
  rw [← parted, length] at restarted
  rw [answers_eq, answers_eq]
  exact restarted

/-- A head is first complete where a blank line ends, behind the field name. This is the first blank
line of the stream exactly if none ended before the name did and no length was refused; for a head
section that does not have the field is passed over as if nothing had come, and the name found in
the body instead. -/
theorem complete_where_head_ends (s : Bytes) :
    (∀ before head later, new.answers s = before ++ .ok (.complete head) :: later →
      (∀ other, .ok (.complete other) ∉ before) →
      ∃ i, fieldMatcher.firstHit? s = some i ∧ i ≤ before.length ∧
        Bytes.blankLine <:+ s.take (before.length + 1) ∧
        (FirstBlankLine s (before.length + 1) ↔
          (∀ n ≤ i, ¬Bytes.blankLine <:+ s.take n) ∧ ∀ defect, .error defect ∉ before)) ∧
    ∀ size, FirstBlankLine s size → fieldMatcher.firstHit? (s.take size) = none →
      new.answers s = more size ++ new.answers (s.drop size) := by
  refine ⟨?_, fun size => answers_without_field⟩
  intro before head later said first
  obtain ⟨i, inner, hit, inside, rfl, completed⟩ := exists_completed said first
  have within := completed.within
  rw [List.length_drop] at within
  have length : (more i ++ inner).length = i + inner.length := by
    rw [List.length_append, length_more]
  have refused : (∃ defect, .error defect ∈ more i ++ inner) ↔
      ∃ n < inner.length, Bytes.blankLine <:+ (s.drop i).take (n + 1) := by
    refine Iff.trans (exists_congr fun defect => ?_) completed.refusals
    rw [List.mem_append, or_iff_right (not_mem_more _ (by simp) i)]
  have ended : Bytes.blankLine <:+ s.take (i + inner.length + 1) := by
    rw [blankLine_take_iff hit (by omega), Nat.add_assoc, Nat.add_sub_cancel_left]
    exact completed.ended
  rw [length]
  refine ⟨i, hit, Nat.le_add_right _ _, ended, ?_, ?_⟩
  · intro blank
    refine ⟨fun n early => blank.first n (by omega), fun defect member => ?_⟩
    obtain ⟨n, before, earlier⟩ := refused.mp ⟨defect, member⟩
    apply blank.first (i + (n + 1)) (by omega)
    rw [blankLine_take_iff hit (by omega), Nat.add_sub_cancel_left]
    exact earlier
  · rintro ⟨clear, accepted⟩
    refine ⟨by omega, ended, fun n before earlier => ?_⟩
    by_cases early : n ≤ i
    · exact clear n early earlier
    · obtain ⟨k, rfl⟩ : ∃ k, n = i + (k + 1) := ⟨n - i - 1, by omega⟩
      rw [blankLine_take_iff hit (by omega), Nat.add_sub_cancel_left] at earlier
      obtain ⟨defect, member⟩ := refused.mpr ⟨k, by omega, earlier⟩
      exact accepted defect member

/-- With the field in it a head section is complete at its end, and one without is passed over. -/
theorem complete_where_head_ends_seven : new.answers seven = more 19 ++ complete 2 7 ∧
    FirstBlankLine seven 20 ∧
    new.answers (Bytes.blankLine ++ seven) = more 4 ++ new.answers seven := by
  have said : new.answers seven = more 19 ++ complete 2 7 := by rfl
  have blank : FirstBlankLine (Bytes.blankLine ++ seven) 4 := by
    refine ⟨?_, ?_, ?_⟩ <;> decide +kernel
  obtain ⟨i, hit, -, -, first⟩ := (complete_where_head_ends seven).1 (more 19) ⟨7⟩ (complete 1 7)
    said fun other => not_mem_more _ (by simp) 19
  have place : fieldMatcher.firstHit? seven = some 15 := by decide +kernel
  obtain rfl := Option.some.inj (hit.symm.trans place)
  refine ⟨said, first.mpr ⟨by decide +kernel, fun _ => not_mem_more _ (by simp) 19⟩, ?_⟩
  exact (complete_where_head_ends (Bytes.blankLine ++ seven)).2 4 blank (by decide +kernel)

/-- A response whose head section does not have the field, with a body that has. -/
def fieldInBody : Bytes := .ofString "HTTP/1.1 200 OK\r\n\r\ncontent-length:5\r\n\r\n"

/-- Its head section has ended when twenty more bytes are taken for the rest of it. -/
theorem complete_behind_head : FirstBlankLine fieldInBody 19 ∧
    fieldMatcher.firstHit? (fieldInBody.take 19) = none ∧
    new.answers fieldInBody = more 38 ++ [.ok (.complete ⟨5⟩)] ∧
    ¬FirstBlankLine fieldInBody 39 := by
  have blank : FirstBlankLine fieldInBody 19 := by
    refine ⟨?_, ?_, ?_⟩ <;> decide +kernel
  refine ⟨blank, by decide +kernel, by rfl, fun late => ?_⟩
  exact late.first 19 (by decide) blank.ends

end HeadScanner
end CoreLocator.Response
