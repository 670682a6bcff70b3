import Mathlib.Data.List.TakeWhile
import CoreLocator.Proofs.Response.Completion

/-! The length that a complete head has, and the one that was written. They are the same if all of
the number stands on the line of the field's name and fits into the capture. A number that reaches
past the capture is cut, and if nothing but blanks is left of the line, what is read stands on
another one. -/
namespace CoreLocator.Response
open Decimal ScanState

variable {s t : Bytes} {width : Nat}

/-- What is left of a line, up to the next carriage return. -/
def restOfLine (s : Bytes) : Bytes := s.takeWhile (· ≠ 0x0D)

theorem restOfLine_append {front : Bytes} (clear : 0x0D ∉ front) (s : Bytes) :
    restOfLine (front ++ s) = front ++ restOfLine s := by
  apply List.takeWhile_append_of_pos
  rintro b member
  exact decide_eq_true fun same => clear (same ▸ member)

theorem length_restOfLine_lt (ended : 0x0D ∈ s.take width) : (restOfLine s).length < width := by
  refine Nat.lt_of_not_le fun long => ?_
  have inside : s.take width <+: restOfLine s := by
    refine List.prefix_of_prefix_length_le (List.take_prefix width s) (List.takeWhile_prefix _) ?_
    rw [List.length_take]
    omega
  have kept := List.mem_takeWhile_imp (inside.subset ended)
  exact of_decide_eq_true kept rfl

theorem takeWhile_restOfLine (s : Bytes) :
    (restOfLine s).takeWhile Ascii.isDigit = s.takeWhile Ascii.isDigit := by
  rw [restOfLine, List.takeWhile_takeWhile]
  congr 1
  funext b
  by_cases stop : b = 0x0D
  · subst stop
    rfl
  · simp [stop]

/-- If any number starts the capture, then it starts with the digits of the line's own number, as
many as the capture has room for, or there is nothing but blanks on the line. -/
theorem number_capture (read : number (t.take width) ≠ []) :
    (number (restOfLine t) = [] ∧ (∀ b ∈ restOfLine t, Ascii.isSpace b = true) ∧
      leading (t.take width) = leading ((t.take width).drop (restOfLine t).length)) ∨
    (number (restOfLine t) ≠ [] ∧
      number (t.take width) = (number (restOfLine t)).take (width - lead (restOfLine t))) := by
  obtain ⟨front, rest, parted, leads⟩ := exists_leads (t.take width)
  obtain ⟨b, more, digits⟩ := List.exists_cons_of_ne_nil read
  have digit : Ascii.isDigit b = true := isDigit_of_mem_number (digits ▸ List.mem_cons_self)
  obtain ⟨u, whole⟩ : ∃ u, t = front ++ b :: u := by
    refine ⟨more ++ rest ++ t.drop width, ?_⟩
    rw [digits] at parted
    have whole := List.take_append_drop width t
    rw [parted] at whole
    simpa using whole.symm
  have visible : b ≠ 0x0D := by
    rintro rfl
    contradiction
  by_cases ended : 0x0D ∈ front
  · -- The line ends among the blanks, and the number is behind its end.
    obtain ⟨blanks, plus, rfl, spaces⟩ := leads
    have early : 0x0D ∈ blanks := by
      rcases List.mem_append.mp ended with blank | sign
      · exact blank
      · cases plus <;> simp at sign
    have start : t.take blanks.length = blanks := by
      rw [whole, List.append_assoc, List.take_left]
    have inside : restOfLine t <+: blanks := by
      have short := length_restOfLine_lt (start.symm ▸ early : 0x0D ∈ t.take blanks.length)
      exact List.prefix_of_prefix_length_le (List.takeWhile_prefix _)
        (start ▸ List.take_prefix _ t) (Nat.le_of_lt short)
    have blank (b : UInt8) (member : b ∈ restOfLine t) : Ascii.isSpace b = true :=
      spaces b (inside.subset member)
    refine .inl ⟨number_of_blanks blank, blank, ?_⟩
    obtain ⟨behind, same⟩ := inside
    rw [parted, ← same]
    simp only [List.append_assoc, List.drop_left, leading_blanks blank]
  · have line : restOfLine t = front ++ b :: restOfLine u := by
      rw [whole, restOfLine_append ended, restOfLine,
        List.takeWhile_cons_of_pos (by simp [visible])]
      rfl
    have own := number_of_leads leads digit (restOfLine u)
    rw [← line] at own
    have same : (b :: restOfLine u).takeWhile Ascii.isDigit = (b :: u).takeWhile Ascii.isDigit := by
      rw [List.takeWhile_cons_of_pos digit, List.takeWhile_cons_of_pos digit, takeWhile_restOfLine]
    have room : front.length < width := by
      have size := congrArg List.length parted
      rw [List.length_take, digits] at size
      simp only [List.length_append, List.length_cons] at size
      omega
    obtain ⟨fewer, rfl⟩ : ∃ fewer, width = front.length + (fewer + 1) :=
      ⟨width - front.length - 1, by omega⟩
    have captured : t.take (front.length + (fewer + 1)) = front ++ b :: u.take fewer := by
      rw [whole, List.take_length_add_append, List.take_succ_cons]
    rw [own.1, own.2, same, captured, (number_of_leads leads digit _).1, Nat.add_sub_cancel_left,
      List.take_takeWhile, List.take_succ_cons]
    refine .inr ⟨?_, rfl⟩
    rw [List.takeWhile_cons_of_pos digit]
    exact List.cons_ne_nil _ _

namespace HeadScanner
open ScanState
variable {head : Head}

theorem exists_first_complete {answers : List (Except ResponseDefect Scan)}
    (said : .ok (.complete head) ∈ answers) :
    ∃ before first later, answers = before ++ .ok (.complete first) :: later ∧
      ∀ other, .ok (.complete other) ∉ before := by
  induction answers with
  | nil => contradiction
  | cons answer answers ih =>
    by_cases now : ∃ first, answer = .ok (.complete first)
    · obtain ⟨first, rfl⟩ := now
      exact ⟨[], first, answers, rfl, fun _ => List.not_mem_nil⟩
    · obtain same | said := List.mem_cons.mp said
      · exact absurd ⟨head, same.symm⟩ now
      · obtain ⟨before, first, later, rfl, clear⟩ := ih said
        refine ⟨answer :: before, first, later, rfl, fun other member => ?_⟩
        obtain same | member := List.mem_cons.mp member
        · exact now ⟨other, same.symm⟩
        · exact clear other member

/-- Of a number only as many digits are read as the capture has room for. -/
theorem length_of_completed {inner later : List (Except ResponseDefect Scan)}
    (completed : Completed [] t inner later head) :
    (number (restOfLine t) = [] ∧ (∀ b ∈ restOfLine t, Ascii.isSpace b = true) ∧
      ∃ width ≤ captureWidth,
        head.contentLength = leading ((t.take width).drop (restOfLine t).length)) ∨
    (number (restOfLine t) ≠ [] ∧ head.contentLength =
      value ((number (restOfLine t)).take (captureWidth - lead (restOfLine t)))) := by
  have length := completed.length
  have ended := completed.ended
  rw [List.nil_append] at length ended
  generalize inner.length + 1 = size at length ended
  rw [List.take_take] at length
  have nonzero := completed.positive
  have read := leading_eq (t.take (min captureWidth size))
  have captured : number (t.take (min captureWidth size)) ≠ [] := by
    intro unread
    rw [unread] at read
    exact nonzero (length.trans read)
  rcases number_capture captured with ⟨bare, blank, behind⟩ | ⟨own, cut⟩
  · exact .inl ⟨bare, blank, _, Nat.min_le_left _ _, length.trans behind⟩
  · refine .inr ⟨own, ?_⟩
    split at read
    · -- A line that ends before the capture does leaves nothing to cut.
      have line : (restOfLine t).length < size :=
        length_restOfLine_lt (ended.subset (by decide))
      have inside := length_number_le (restOfLine t)
      rw [length, read, cut]
      by_cases full : captureWidth ≤ size
      · rw [Nat.min_eq_left full]
      · rw [Nat.min_eq_right (by omega), List.take_of_length_le (by omega),
          List.take_of_length_le (by omega)]
    · exact absurd (length.trans read) nonzero

theorem exists_first_completed (said : .ok (.complete head) ∈ new.answers s) :
    ∃ i inner later, fieldMatcher.firstHit? s = some i ∧
      Completed [] (s.drop i) inner later head := by
  obtain ⟨before, first, later, answered, clear⟩ := exists_first_complete said
  obtain ⟨i, inner, hit, -, rfl, completed⟩ := exists_completed answered clear
  refine ⟨i, inner, later, hit, ?_⟩
  suffices same : head = first from same ▸ completed
  rw [answered] at said
  rcases List.mem_append.mp said with early | said
  · exact absurd early (clear head)
  · rcases List.mem_cons.mp said with now | late
    · exact Scan.complete.inj (Except.ok.inj now)
    · rw [completed.stays] at late
      exact Scan.complete.inj (Except.ok.inj (List.eq_of_mem_replicate late))

/-- The length of a complete head is the number on the rest of the line of the field's name if that
line has one and the capture reaches to its last digit. Otherwise it is not: a longer number is read
without the digits behind the capture, and in place of a number that is missing the one on a
following line is read. -/
theorem scanned_length (said : .ok (.complete head) ∈ new.answers s) :
    ∃ i line, fieldMatcher.firstHit? s = some i ∧ line = restOfLine (s.drop i) ∧
      (head.contentLength = value (number line) ↔
        number line ≠ [] ∧ lead line + (number line).length ≤ captureWidth) ∧
      (number line ≠ [] → captureWidth < lead line + (number line).length →
        head.contentLength = value ((number line).take (captureWidth - lead line)) ∧
        head.contentLength < value (number line)) ∧
      (number line = [] → (∀ b ∈ line, Ascii.isSpace b = true) ∧
        ∃ width ≤ captureWidth,
          head.contentLength = leading (((s.drop i).take width).drop line.length)) := by
  obtain ⟨i, inner, later, hit, completed⟩ := exists_first_completed said
  have positive := completed.positive
  refine ⟨i, _, hit, rfl, ?_⟩
  rcases length_of_completed completed with ⟨bare, blank, behind⟩ | ⟨own, length⟩
  · -- No digits are worth nothing, and a complete head has a length.
    refine ⟨⟨fun same => ?_, fun whole => absurd bare whole.1⟩, (absurd bare ·),
      fun _ => ⟨blank, behind⟩⟩
    rw [bare] at same
    exact absurd same positive
  · generalize restOfLine (s.drop i) = line at own length
    have cut (long : captureWidth < lead line + (number line).length) :
        head.contentLength < value (number line) := by
      have digits := List.length_pos_iff.mpr own
      have behind : (number line).drop (captureWidth - lead line) ≠ [] := by
        rw [Ne, List.drop_eq_nil_iff]
        omega
      rw [length] at positive ⊢
      have less := value_lt_append positive behind
      rwa [List.take_append_drop] at less
    refine ⟨⟨fun same => ⟨own, ?_⟩, fun whole => ?_⟩, fun _ long => ⟨length, cut long⟩,
      (absurd · own)⟩
    · exact Nat.le_of_not_lt fun long => Nat.ne_of_lt (cut long) same
    · rw [length, List.take_of_length_le (by omega)]

/-- A length behind so many blanks that the capture has room for one digit. -/
def padded : Bytes := .ofString "content-length:         25\r\n\r\n"

theorem scanned_length_cut : new.answers padded = more 29 ++ complete 1 2 ∧
    number (restOfLine (padded.drop 15)) = .ofString "25" ∧ 2 < value (.ofString "25") := by
  have said : new.answers padded = more 29 ++ complete 1 2 := by rfl
  have place : fieldMatcher.firstHit? padded = some 15 := by decide +kernel
  have member : .ok (.complete ⟨2⟩) ∈ new.answers padded :=
    said ▸ List.mem_append_right _ List.mem_cons_self
  obtain ⟨i, line, hit, rfl, -, cut, -⟩ := scanned_length member
  obtain rfl := Option.some.inj (hit.symm.trans place)
  have digits : number (restOfLine (padded.drop 15)) = .ofString "25" := by decide +kernel
  refine ⟨said, digits, ?_⟩
  rw [← digits]
  exact (cut (by decide +kernel) (by decide +kernel)).2

/-- A field without a length, and a line behind it that begins with a number. -/
def lengthless : Bytes := .ofString "content-length:\r\n5: x\r\n\r\n"

/-- Twenty-five bytes are taken for two, and no length is taken for five. -/
theorem length_misread :
    (.ok (.complete ⟨2⟩) ∈ new.answers padded ∧ fieldMatcher.firstHit? padded = some 15 ∧
      value (number (restOfLine (padded.drop 15))) = 25) ∧
    (.ok (.complete ⟨5⟩) ∈ new.answers lengthless ∧ fieldMatcher.firstHit? lengthless = some 15 ∧
      restOfLine (lengthless.drop 15) = []) := by
  refine ⟨⟨?_, ?_, ?_⟩, ?_, ?_, ?_⟩ <;> decide +kernel

end HeadScanner
end CoreLocator.Response
