import CoreLocator.Proofs.Response.Completion
import CoreLocator.Proofs.Response.Reading

/-! The capture of a scan. It has room for ten bytes, and they are read as soon as it is full, so
what it holds when it is read first is all that has come behind the field name. Ten bytes spell no
number of more than ten digits: no length that a scan finds comes near the word limit. -/
namespace CoreLocator.Response
open Network

/-- A length that ten bytes can spell. -/
def Short (length : Nat) : Prop := 1 ≤ length ∧ length ≤ 9999999999

theorem Short.documentSize {head : Head} (short : Short head.contentLength) :
    head.documentSize = head.contentLength + 1 := by
  have word : 9999999999 + 1 ≤ Decimal.wordLimit - 1 := by decide
  exact Nat.min_eq_left (Nat.le_trans (Nat.succ_le_succ short.2) word)

namespace ScanState
variable {state after : ScanState} {captured seen s : Bytes} {window : BoundaryWindow} {b : UInt8}
  {n : Nat}

/-- At most ten bytes are held, or a length that they can spell. -/
def Narrow : ScanState → Prop
  | field _ => True
  | length captured _ => captured.length ≤ captureWidth
  | boundary n _ => Short n
  | done head => Short head.contentLength

/-- These bytes are held, or the number that they start with. -/
def Holds (bytes : Bytes) : ScanState → Prop
  | field _ => False
  | length captured _ => captured = bytes
  | boundary n _ => n = Decimal.leading bytes
  | done head => head.contentLength = Decimal.leading bytes

theorem short_leading (narrow : captured.length ≤ captureWidth)
    (nonzero : Decimal.leading captured ≠ 0) : Short (Decimal.leading captured) := by
  have bound := Decimal.leading_lt captured
  have room : Nat.pow 10 captured.length ≤ Nat.pow 10 captureWidth :=
    Nat.pow_le_pow_right (by decide) narrow
  have ten : Nat.pow 10 captureWidth = 10000000000 := by decide
  exact ⟨Nat.pos_of_ne_zero nonzero, by omega⟩

theorem checkedLength_narrow (narrow : captured.length ≤ captureWidth) :
    (∀ defect, checkedLength (Decimal.leading captured) = .error defect →
      defect = .lengthUnreadable) ∧
    ∀ n, checkedLength (Decimal.leading captured) = .ok n → Short n := by
  rw [checkedLength_capture narrow]
  by_cases zero : Decimal.leading captured = 0
  · rw [if_pos zero]
    exact ⟨fun _ refused => (Except.error.inj refused).symm, nofun⟩
  · rw [if_neg zero]
    refine ⟨nofun, ?_⟩
    rintro _ ⟨⟩
    exact short_leading narrow zero

/-- One byte: nothing but a missing length is refused, and the capture does not overflow. -/
theorem Narrow.push (narrow : state.Narrow) (b : UInt8) : (state.push b).2.Narrow ∧
    ((state.push b).1 = .ok () ∨ (state.push b).1 = .error .lengthUnreadable) := by
  cases state with
  | field matcher =>
    simp only [ScanState.push]
    split
    · exact ⟨Nat.zero_le _, .inl rfl⟩
    · exact ⟨trivial, .inl rfl⟩
  | length captured window =>
    have kept : (if captured.length < captureWidth then captured ++ [b] else captured).length ≤
        captureWidth := by
      split
      · next room => rwa [List.length_append]
      · exact narrow
    obtain ⟨_, held | ⟨defect, refused, state⟩ | ⟨n, found, state⟩⟩ := push_length rfl window
    · rw [held]
      exact ⟨kept, .inl rfl⟩
    · obtain rfl := (checkedLength_narrow kept).1 defect refused
      rw [state]
      exact ⟨kept, .inr rfl⟩
    · have short := (checkedLength_narrow kept).2 n found
      obtain state | state := state
      · rw [state]
        exact ⟨short, .inl rfl⟩
      · rw [state]
        exact ⟨short, .inl rfl⟩
  | boundary n window =>
    simp only [ScanState.push]
    split
    · exact ⟨narrow, .inl rfl⟩
    · exact ⟨narrow, .inl rfl⟩
  | done head => exact ⟨narrow, .inl rfl⟩

theorem Narrow.pushAll (narrow : state.Narrow) (s : Bytes) : (state.pushAll s).Narrow := by
  induction s generalizing state with
  | nil => exact narrow
  | cons b s ih => exact ih (narrow.push b).1

/-- Whatever comes, and whatever has been refused before. -/
theorem Narrow.answers (narrow : state.Narrow) (s : Bytes) :
    (∀ head, .ok (.complete head) ∈ state.answers s → Short head.contentLength) ∧
    ∀ defect, .error defect ∈ state.answers s → defect = .lengthUnreadable := by
  induction s generalizing state with
  | nil => exact ⟨nofun, nofun⟩
  | cons b s ih =>
    obtain ⟨next, refusal⟩ := narrow.push b
    obtain ⟨heads, defects⟩ := ih next
    rw [ScanState.answers]
    generalize (state.push b).1 = outcome at refusal
    generalize (state.push b).2 = after at next heads defects
    constructor
    · intro head member
      rcases List.mem_cons.mp member with now | later
      · obtain rfl | rfl := refusal
        · cases after with
          | done reached =>
            obtain rfl := Scan.complete.inj (Except.ok.inj now)
            exact next
          | _ => cases now
        · contradiction
      · exact heads head later
    · intro defect member
      rcases List.mem_cons.mp member with now | later
      · obtain rfl | rfl := refusal
        · contradiction
        · exact Except.error.inj now
      · exact defects defect later

/-- With room in the capture the next byte goes in before anything is read. -/
theorem push_holds (room : captured.length < captureWidth) :
    ((length captured window).push b).2.Holds (captured ++ [b]) := by
  obtain ⟨_, held | ⟨_, _, refused⟩ | ⟨n, found, ended | seeking⟩⟩ :=
    push_length (b := b) (if_pos room) window
  · rw [held]
    rfl
  · rw [refused]
    rfl
  · rw [ended]
    exact eq_of_checkedLength found
  · rw [seeking]
    exact eq_of_checkedLength found

theorem push_behind_ok (pushed : (behind seen).push b = (.ok (), after)) :
    after = behind (seen ++ [b]) ∨ ∃ head, after = done head := by
  by_cases narrow : seen.length < captureWidth
  · have whole : (seen ++ [b]).take captureWidth = seen ++ [b] :=
      List.take_of_length_le (by rw [List.length_append]; exact narrow)
    by_cases decided : Bytes.blankLine <:+ seen ++ [b] ∨ seen.length + 1 = captureWidth
    · -- Now the capture is read, so there is a length in it.
      have nonzero : Decimal.leading (seen ++ [b]) ≠ 0 := by
        intro zero
        have refused := push_behind_refused narrow decided zero
        rw [pushed] at refused
        contradiction
      have valid := checkedLength_capture (List.length_take_le captureWidth (seen ++ [b]))
      rw [whole, if_neg nonzero] at valid
      by_cases ended : Bytes.blankLine <:+ seen ++ [b]
      · have complete := push_behind_end ended (whole.symm ▸ valid)
        exact .inr ⟨_, congrArg Prod.snd (pushed.symm.trans complete)⟩
      · have goesOn := push_behind ended fun _ => whole.symm ▸ valid
        exact .inl (congrArg Prod.snd (pushed.symm.trans goesOn))
    · rw [not_or] at decided
      have goesOn := push_behind (n := 0) decided.1 fun full => absurd full decided.2
      exact .inl (congrArg Prod.snd (pushed.symm.trans goesOn))
  · by_cases ended : Bytes.blankLine <:+ seen ++ [b]
    · refine .inr ⟨⟨Decimal.leading (seen.take captureWidth)⟩, ?_⟩
      simp only [behind, if_neg narrow, push, BoundaryWindow.push_ofBytes, decide_eq_true ended]
        at pushed
      exact (Prod.mk.inj pushed).2.symm
    · have wide : seen.length + 1 ≠ captureWidth := by omega
      have goesOn := push_behind (n := 0) ended fun full => absurd full wide
      exact .inl (congrArg Prod.snd (pushed.symm.trans goesOn))

theorem pushAll_done (head : Head) (s : Bytes) : (done head).pushAll s = done head := by
  induction s with
  | nil => rfl
  | cons b s ih => exact ih

/-- As long as nothing is refused and no head is complete, the state is that behind all the bytes
that have come. -/
theorem pushAll_behind (accepted : ∀ defect, .error defect ∉ (behind seen).answers s)
    (unfinished : ∀ head, (behind seen).pushAll s ≠ done head) :
    (behind seen).pushAll s = behind (seen ++ s) := by
  induction s generalizing seen with
  | nil => rw [List.append_nil]; rfl
  | cons b s ih =>
    obtain ⟨outcome, after, pushed⟩ : ∃ outcome after,
        (behind seen).push b = (outcome, after) := ⟨_, _, rfl⟩
    rw [answers, pushed] at accepted
    rw [ScanState.pushAll, List.foldl_cons, pushed, ← ScanState.pushAll] at unfinished ⊢
    obtain defect | _ := outcome
    · exact absurd List.mem_cons_self (accepted defect)
    · rcases push_behind_ok pushed with rfl | ⟨head, rfl⟩
      · have later := ih (fun defect member => accepted defect (List.mem_cons_of_mem _ member))
          unfinished
        rwa [List.append_assoc] at later
      · exact absurd (pushAll_done head s) (unfinished head)

theorem captured_unread (accepted : ∀ defect, .error defect ∉ (behind []).answers s)
    (capturing : (behind []).pushAll s = length captured window) :
    captured = s ∧ captured.length < captureWidth := by
  have same := pushAll_behind accepted fun head ended => by
    rw [capturing] at ended
    contradiction
  rw [capturing, List.nil_append, behind] at same
  split at same
  · next room =>
    obtain ⟨rfl, -⟩ := length.inj same
    exact ⟨rfl, room⟩
  · contradiction

end ScanState

namespace HeadScanner
open ScanState

theorem behind_hit {name s : Bytes} {i : Nat}
    (hit : FieldMatcher.firstHit? { target := name } s = some i) :
    (ofField name).state.pushAll s = (behind []).pushAll (s.drop i) ∧
      (ofField name).answers s = more i ++ (behind []).answers (s.drop i) := by
  obtain ⟨inside, passes⟩ := passes_of_hit hit
  have said := answers_passes passes (s.drop i)
  rw [List.take_append_drop, List.length_take_of_le inside] at said
  have state := (ofField name).state.pushAll_append (s.take i) (s.drop i)
  rw [List.take_append_drop] at state
  refine ⟨state.trans ?_, (answers_eq _ s).trans said⟩
  exact congrArg (ScanState.pushAll · (s.drop i)) passes.pushAll

theorem exists_captured {name s captured : Bytes} {window : BoundaryWindow}
    (capturing : (ofField name).state.pushAll s = .length captured window)
    (accepted : ∀ defect, .error defect ∉ (ofField name).answers s) :
    ∃ i, FieldMatcher.firstHit? { target := name } s = some i ∧ captured = s.drop i ∧
      captured.length < captureWidth := by
  cases hit : FieldMatcher.firstHit? { target := name } s with
  | none =>
    obtain ⟨m, passes⟩ := passes_of_miss hit
    have searching : (ofField name).state.pushAll s = field m := passes.pushAll
    rw [searching] at capturing
    contradiction
  | some i =>
    obtain ⟨state, said⟩ := behind_hit hit
    rw [state] at capturing
    have inner (defect : ResponseDefect) : .error defect ∉ (behind []).answers (s.drop i) :=
      fun member => accepted defect (said ▸ List.mem_append_right _ member)
    obtain ⟨same, room⟩ := captured_unread inner capturing
    exact ⟨i, rfl, same, room⟩

end HeadScanner

section Links
variable {σ κ : Type} [Network (StateM σ) κ] [Log (StateM σ)] {scanner : HeadScanner}

def Scanned : Except Failure Head → Prop
  | .error failure => failure ≠ .malformedResponse .lengthTooLarge
  | .ok head => Short head.contentLength

theorem scanned_scanHead (narrow : scanner.state.Narrow) (link : Link κ) (budget : Nat) (s : σ) :
    Scanned (scanHead (m := StateM σ) link scanner budget s).1 := by
  induction budget generalizing scanner s with
  | zero => rintro ⟨⟩
  | succ budget ih =>
    obtain ⟨answer, after, received⟩ : ∃ answer after,
        link.receive (m := StateM σ) 1 s = (answer, after) := ⟨_, _, rfl⟩
    rcases answer with fault | ⟨_ | ⟨b, _ | _⟩, fits⟩
    · rw [scanHead_fault received]
      rintro ⟨⟩
    · rw [scanHead_ended received]
      cases scanner.foundField <;> rintro ⟨⟩
    · obtain ⟨next, refusal⟩ := narrow.push b
      rw [scanHead, bind_of_eq received]
      dsimp only [HeadScanner.push]
      obtain ⟨outcome, state, pushed⟩ : ∃ outcome state,
          scanner.state.push b = (outcome, state) := ⟨_, _, rfl⟩
      rw [pushed] at next refusal ⊢
      cases outcome with
      | error defect =>
        obtain impossible | same := refusal
        · contradiction
        · cases same
          rintro ⟨⟩
      | ok _ =>
        cases state with
        | done head => exact next
        | _ => exact ih next after
    · contradiction

theorem scanned_readHead (link : Link κ) (s : σ) :
    Scanned (readHead (m := StateM σ) link s).1.1 := by
  have narrow : HeadScanner.new.state.Narrow := trivial
  have scanned := scanned_scanHead narrow link maxHeadLength s
  obtain ⟨outcome, after, same⟩ : ∃ outcome after,
      scanHead (m := StateM σ) link .new maxHeadLength s = (outcome, after) := ⟨_, _, rfl⟩
  rw [same] at scanned
  cases outcome with
  | error failure => rwa [readHead_failed same]
  | ok head => rwa [readHead_found same]

/-- No scan, however long it goes on and whatever it has refused, comes near the limit of a length;
neither does one that reads from a link. So no length is refused for being too large, and there is
always one more than it. The capture never holds more than ten bytes. Until it is first read it
holds all that have come behind the name, and has room for the byte at which it is read. -/
theorem HeadScanner.length_far_from_limit (name s : Bytes) (link : Link κ) (start : σ) :
    let said := (ofField name).answers s
    let state := (ofField name).state.pushAll s
    let read := (readHead (m := StateM σ) link start).1.1
    (∀ head, .ok (.complete head) ∈ said ∨ read = .ok head →
      1 ≤ head.contentLength ∧ head.contentLength ≤ 9999999999 ∧
        head.documentSize = head.contentLength + 1) ∧
    .error .lengthTooLarge ∉ said ∧ read ≠ .error (.malformedResponse .lengthTooLarge) ∧
    ∀ captured window, state = .length captured window →
      captured.length ≤ 10 ∧
      ((∀ defect, .error defect ∉ said) →
        ∃ i, FieldMatcher.firstHit? { target := name } s = some i ∧ captured = s.drop i ∧
          captured.length < 10 ∧ ∀ b, (state.push b).2.Holds (captured ++ [b])) := by
  intro said state read
  have start : (ofField name).state.Narrow := trivial
  obtain ⟨heads, defects⟩ := start.answers s
  rw [← answers_eq] at heads defects
  have scanned : Scanned read := scanned_readHead link _
  refine ⟨?_, ?_, ?_, ?_⟩
  · intro head reached
    have short : Short head.contentLength := by
      rcases reached with reported | found
      · exact heads head reported
      · rwa [found] at scanned
    exact ⟨short.1, short.2, short.documentSize⟩
  · intro refused
    have other := defects _ refused
    contradiction
  · intro refused
    rw [refused] at scanned
    exact scanned rfl
  · intro captured window capturing
    have narrow : state.Narrow := start.pushAll s
    rw [capturing] at narrow
    refine ⟨narrow, fun accepted => ?_⟩
    obtain ⟨i, hit, same, room⟩ := exists_captured capturing accepted
    refine ⟨i, hit, same, room, fun b => ?_⟩
    rw [capturing]
    exact ScanState.push_holds room

end Links

namespace HeadScanner

/-- The field with the largest length that the capture has room for, and the end of a head. -/
def tenDigits : Bytes := .ofString "content-length:9999999999\r\n\r\n"

/-- Its size is the length and one more; a byte before the capture is full nothing is lost. -/
theorem length_far_from_limit_ten_digits :
    .ok (.complete ⟨9999999999⟩) ∈ new.answers tenDigits ∧
    (⟨9999999999⟩ : Head).documentSize = 10000000000 ∧
    new.state.pushAll (tenDigits.take 24) =
      .length (.ofString "999999999") ⟨.ofString "9999"⟩ ∧
    ((new.state.pushAll (tenDigits.take 24)).push 0x39).2.Holds (.ofString "9999999999") := by
  have reported : .ok (.complete ⟨9999999999⟩) ∈ new.answers tenDigits := by
    have said : new.answers tenDigits = more 28 ++ complete 1 9999999999 := by rfl
    rw [said]
    exact List.mem_append_right _ List.mem_cons_self
  have capturing : new.state.pushAll (tenDigits.take 24) =
      .length (.ofString "999999999") ⟨.ofString "9999"⟩ := by decide +kernel
  have accepted : ∀ defect, .error defect ∉ new.answers (tenDigits.take 24) := by
    have said : new.answers (tenDigits.take 24) = more 24 := by rfl
    intro defect
    rw [said]
    exact not_mem_more _ (by simp) 24
  obtain ⟨heads, -, -, -⟩ := length_far_from_limit contentLengthField tenDigits
    (.ofConnection ⟨0⟩) twoPieces
  obtain ⟨-, -, -, capture⟩ := length_far_from_limit contentLengthField (tenDigits.take 24)
    (.ofConnection ⟨0⟩) twoPieces
  obtain ⟨-, whole⟩ := capture _ _ capturing
  obtain ⟨i, -, -, -, held⟩ := whole accepted
  exact ⟨reported, (heads _ (.inl reported)).2.2, capturing, held 0x39⟩

end HeadScanner
end CoreLocator.Response
