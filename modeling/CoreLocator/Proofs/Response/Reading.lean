import CoreLocator.Proofs.Response.Fetch
import CoreLocator.Proofs.Response.Scanner

/-! Reading a head over any connection at all. The bytes that single reads take are the ones that
the scan is given, so its first decision ends the reading, unless the limit or the end of the stream
comes before it. -/
namespace CoreLocator.Response
open Network

variable {σ κ : Type} [Network (StateM σ) κ] {link : Link κ} {s after : σ} {bytes : Bytes}
  {b : UInt8}

namespace ScanState
variable {state final : ScanState} {later : List (Except ResponseDefect Scan)} {n : Nat}

theorem passes_of_answers (said : state.answers bytes = more n ++ later) :
    Passes state (bytes.take n) (state.pushAll (bytes.take n)) ∧
      (state.pushAll (bytes.take n)).answers (bytes.drop n) = later := by
  induction n generalizing state bytes with
  | zero => exact ⟨.done, said⟩
  | succ n ih =>
    cases bytes with
    | nil => contradiction
    | cons b bytes =>
      obtain ⟨now, rest⟩ := List.cons.inj said
      obtain ⟨passes, said⟩ := ih rest
      have taken : (state.push b).1 = .ok () := by
        generalize (state.push b).1 = outcome at now
        cases outcome with
        | error defect => contradiction
        | ok _ => rfl
      rw [taken] at now
      exact ⟨.byte (Prod.ext taken rfl) (Except.ok.inj now) passes, said⟩

theorem foundField_push {k : Nat} (found : HeadScanner.foundField ⟨state, n⟩ = true) (b : UInt8) :
    HeadScanner.foundField ⟨(state.push b).2, k⟩ = true := by
  cases state with
  | field matcher => contradiction
  | length captured window =>
    obtain ⟨_, state | ⟨_, _, state⟩ | ⟨_, _, state | state⟩⟩ := push_length (b := b) rfl window
    all_goals
      rw [state]
      rfl
  | boundary contentLength window =>
    simp only [push]
    split <;> rfl
  | done head => rfl

/-- A field that has been found stays found. -/
theorem foundField_pushAll {k : Nat} (found : HeadScanner.foundField ⟨state, n⟩ = true)
    (bytes : Bytes) : HeadScanner.foundField ⟨state.pushAll bytes, k⟩ = true := by
  induction bytes generalizing state with
  | nil => exact found
  | cons b bytes ih => exact ih (foundField_push found b)

/-- The field is found with the first hit. -/
theorem foundField_field (m : FieldMatcher) (bytes : Bytes) (k : Nat) :
    HeadScanner.foundField ⟨(field m).pushAll bytes, k⟩ = (m.firstHit? bytes).isSome := by
  cases hit : m.firstHit? bytes with
  | none =>
    obtain ⟨m, passes⟩ := passes_of_miss hit
    rw [passes.pushAll]
    rfl
  | some i =>
    obtain ⟨-, passes⟩ := passes_of_hit hit
    rw [← List.take_append_drop i bytes, pushAll_append, passes.pushAll]
    exact foundField_pushAll (n := 0) rfl _

end ScanState

variable [Log (StateM σ)]

section Scan
variable {scanner : HeadScanner} {budget : Nat}

theorem scanHead_complete {fits : [b].length ≤ 1} {head : Head}
    (answer : link.receive (m := StateM σ) 1 s = (.ok ⟨[b], fits⟩, after))
    (said : (scanner.push b).1 = .ok (.complete head)) (budget : Nat) :
    ∃ record, scanHead (m := StateM σ) link scanner (budget + 1) s =
      (.ok head, noted [record] after) := by
  rw [scanHead, bind_of_eq answer]
  dsimp only
  generalize scanner.push b = pushed at said ⊢
  obtain ⟨outcome, next⟩ := pushed
  obtain rfl : outcome = _ := said
  exact ⟨_, rfl⟩

theorem scanHead_refused {fits : [b].length ≤ 1} {defect : ResponseDefect}
    (answer : link.receive (m := StateM σ) 1 s = (.ok ⟨[b], fits⟩, after))
    (said : (scanner.push b).1 = .error defect) (budget : Nat) :
    scanHead (m := StateM σ) link scanner (budget + 1) s =
      (.error (.malformedResponse defect), after) := by
  rw [scanHead, bind_of_eq answer]
  dsimp only
  generalize scanner.push b = pushed at said ⊢
  obtain ⟨outcome, next⟩ := pushed
  obtain rfl : outcome = _ := said
  rfl

theorem scanHead_fault {fault : Fault}
    (answer : link.receive (m := StateM σ) 1 s = (.error fault, after))
    (scanner : HeadScanner) (budget : Nat) :
    scanHead (m := StateM σ) link scanner (budget + 1) s = (.error (.transport fault), after) := by
  rw [scanHead, bind_of_eq answer]
  rfl

theorem scanHead_ended {fits : ([] : Bytes).length ≤ 1}
    (answer : link.receive (m := StateM σ) 1 s = (.ok ⟨[], fits⟩, after))
    (scanner : HeadScanner) (budget : Nat) :
    scanHead (m := StateM σ) link scanner (budget + 1) s = (.error (.malformedResponse
      (if scanner.foundField then .headUnfinished else .noLength)), after) := by
  rw [scanHead, bind_of_eq answer]
  rfl

end Scan

section Head

theorem readHead_found {head : Head}
    (scanned : scanHead (m := StateM σ) link .new maxHeadLength s = (.ok head, after)) :
    readHead (m := StateM σ) link s = ((.ok head, link), after) := by
  rw [readHead, bind_of_eq scanned]
  rfl

/-- No head comes of the link, and it is closed. -/
def givenUp (link : Link κ) (failure : Failure) (s : σ) : (Except Failure Head × Link κ) × σ :=
  ((.error failure, ⟨none⟩), (link.close (m := StateM σ) s).2)

theorem readHead_failed {failure : Failure}
    (scanned : scanHead (m := StateM σ) link .new maxHeadLength s = (.error failure, after)) :
    readHead (m := StateM σ) link s = givenUp link failure after := by
  rw [readHead, bind_of_eq scanned]
  dsimp only
  rw [bind_apply, close_fst]
  rfl

/-- The link is still open exactly if there is a head. -/
theorem isOpen_readHead (link : Link κ) (s : σ) :
    (readHead (m := StateM σ) link s).1.2.isOpen = true ↔
      ∃ head, (readHead (m := StateM σ) link s).1.1 = .ok head := by
  obtain ⟨outcome, after, scanned⟩ : ∃ outcome after,
      scanHead (m := StateM σ) link .new maxHeadLength s = (outcome, after) := ⟨_, _, rfl⟩
  cases outcome with
  | error failure =>
    rw [readHead_failed scanned]
    exact iff_of_false Bool.false_ne_true nofun
  | ok head =>
    rw [readHead_found scanned]
    refine iff_of_true ?_ ⟨head, rfl⟩
    obtain ⟨_ | c⟩ := link
    · have closed : scanHead (m := StateM σ) (⟨none⟩ : Link κ) .new maxHeadLength s =
          (.error (.transport .linkClosed), s) := scanHead_fault rfl .new 8191
      have impossible := congrArg Prod.fst (closed.symm.trans scanned)
      contradiction
    · rfl

section Stream
variable {later : List (Except ResponseDefect Scan)} {n : Nat} (stream : Takes link s bytes after)
include stream

/-- While more is needed the bytes taken are scanned, up to the limit. -/
theorem scanHead_more (said : HeadScanner.new.answers bytes = more n ++ later)
    (short : n ≤ maxHeadLength) : ∃ middle, Takes link s (bytes.take n) middle ∧
      Takes link middle (bytes.drop n) after ∧ ∃ scanner : HeadScanner,
        scanner.state = HeadScanner.new.state.pushAll (bytes.take n) ∧
        scanner.state.answers (bytes.drop n) = later ∧
        scanHead (m := StateM σ) link .new maxHeadLength s =
          scanHead (m := StateM σ) link scanner (maxHeadLength - n) middle := by
  rw [HeadScanner.answers_eq] at said
  have length := congrArg List.length said
  rw [ScanState.length_answers, List.length_append, length_more] at length
  obtain ⟨passes, rest⟩ := ScanState.passes_of_answers said
  rw [← List.take_append_drop n bytes] at stream
  obtain ⟨middle, first, last⟩ := stream.split
  have count : maxHeadLength = (bytes.take n).length + (maxHeadLength - n) := by
    rw [List.length_take_of_le (by omega)]
    omega
  have scanned := scanHead_takes passes first (maxHeadLength - n)
  rw [← count] at scanned
  exact ⟨middle, first, last, ⟨_, _⟩, rfl, rest, scanned⟩

/-- The byte that decides is the next to be read. -/
theorem scanHead_decides {verdict : Except ResponseDefect Scan}
    (said : HeadScanner.new.answers bytes = more n ++ verdict :: later)
    (short : n + 1 ≤ maxHeadLength) : ∃ (middle taken : σ) (b : UInt8) (fits : [b].length ≤ 1),
      link.receive (m := StateM σ) 1 middle = (.ok ⟨[b], fits⟩, taken) ∧
      Takes link s (bytes.take (n + 1)) taken ∧ ∃ (scanner : HeadScanner) (budget : Nat),
        (scanner.push b).1 = verdict ∧
        scanHead (m := StateM σ) link .new maxHeadLength s =
          scanHead (m := StateM σ) link scanner (budget + 1) middle := by
  obtain ⟨middle, first, last, scanner, -, rest, scanned⟩ :=
    scanHead_more stream said (Nat.le_of_succ_le short)
  obtain ⟨budget, count⟩ : ∃ budget, maxHeadLength - n = budget + 1 :=
    ⟨maxHeadLength - n - 1, by omega⟩
  have front : bytes.take (n + 1) = bytes.take n ++ (bytes.drop n).take 1 := List.take_add
  rw [count] at scanned
  rw [front]
  generalize bytes.drop n = behind at last rest
  cases last with
  | none => contradiction
  | @byte _ taken _ b _ fits answer _ =>
    obtain ⟨now, -⟩ := List.cons.inj rest
    exact ⟨middle, taken, b, fits, answer, first.concat answer, scanner, budget, now, scanned⟩

theorem readHead_complete {head : Head}
    (said : HeadScanner.new.answers bytes = more n ++ .ok (.complete head) :: later)
    (short : n + 1 ≤ maxHeadLength) :
    ∃ taken record, Takes link s (bytes.take (n + 1)) taken ∧
      readHead (m := StateM σ) link s = ((.ok head, link), noted [record] taken) := by
  obtain ⟨middle, taken, b, fits, answer, first, scanner, budget, now, scanned⟩ :=
    scanHead_decides stream said short
  obtain ⟨record, complete⟩ := scanHead_complete answer now budget
  exact ⟨taken, record, first, readHead_found (scanned.trans complete)⟩

theorem readHead_refused {defect : ResponseDefect}
    (said : HeadScanner.new.answers bytes = more n ++ .error defect :: later)
    (short : n + 1 ≤ maxHeadLength) : ∃ taken, Takes link s (bytes.take (n + 1)) taken ∧
      readHead (m := StateM σ) link s = givenUp link (.malformedResponse defect) taken := by
  obtain ⟨middle, taken, b, fits, answer, first, scanner, budget, now, scanned⟩ :=
    scanHead_decides stream said short
  have refused := scanHead_refused answer now budget
  exact ⟨taken, first, readHead_failed (scanned.trans refused)⟩

theorem readHead_tooLong
    (said : (HeadScanner.new.answers bytes).take maxHeadLength = more maxHeadLength) :
    ∃ taken, Takes link s (bytes.take maxHeadLength) taken ∧
      readHead (m := StateM σ) link s = givenUp link (.malformedResponse .headTooLong) taken := by
  have parted := List.take_append_drop maxHeadLength (HeadScanner.new.answers bytes)
  rw [said] at parted
  obtain ⟨taken, first, -, scanner, -, -, scanned⟩ :=
    scanHead_more stream parted.symm (Nat.le_refl _)
  rw [Nat.sub_self] at scanned
  exact ⟨taken, first, readHead_failed scanned⟩

/-- A head that is complete at the limit is read, and one that takes a byte more is not. -/
theorem readHead_ok_iff {head : Head}
    (said : HeadScanner.new.answers bytes = more n ++ .ok (.complete head) :: later) :
    (readHead (m := StateM σ) link s).1.1 = .ok head ↔ n + 1 ≤ maxHeadLength := by
  constructor
  · intro found
    apply Nat.le_of_not_lt
    intro long
    have passed : (HeadScanner.new.answers bytes).take maxHeadLength = more maxHeadLength := by
      rw [said, List.take_append_of_le_length (by rw [length_more]; omega), more,
        List.take_replicate, Nat.min_eq_left (by omega), more]
    obtain ⟨taken, -, same⟩ := readHead_tooLong stream passed
    rw [same] at found
    contradiction
  · intro short
    obtain ⟨taken, record, -, same⟩ := readHead_complete stream said short
    rw [same]

/-- Where nothing is decided the end of the stream is read, and whether the field had been found
tells what is missing. -/
theorem scanHead_undecided (said : HeadScanner.new.answers bytes = more bytes.length)
    (short : bytes.length < maxHeadLength) : ∃ (scanner : HeadScanner) (budget : Nat),
      scanner.foundField = (HeadScanner.fieldMatcher.firstHit? bytes).isSome ∧
      scanHead (m := StateM σ) link .new maxHeadLength s =
        scanHead (m := StateM σ) link scanner (budget + 1) after := by
  rw [← List.append_nil (more _)] at said
  obtain ⟨middle, first, last, scanner, state, -, scanned⟩ :=
    scanHead_more stream said (Nat.le_of_lt short)
  obtain ⟨budget, count⟩ : ∃ budget, maxHeadLength - bytes.length = budget + 1 :=
    ⟨maxHeadLength - bytes.length - 1, by omega⟩
  rw [List.drop_length] at last
  cases last
  rw [count] at scanned
  rw [List.take_length] at state
  refine ⟨scanner, budget, ?_, scanned⟩
  have found := ScanState.foundField_field HeadScanner.fieldMatcher bytes scanner.consumed
  rw [← found]
  exact congrArg (fun state => HeadScanner.foundField ⟨state, scanner.consumed⟩) state

end Stream

/-- A head is read as its bytes are scanned. The first decision of the scan is the outcome if the
limit allows the byte that it is made at, and then the bytes up to that one have been taken.
Otherwise the bytes are taken up to the limit, or up to the end if that comes first. -/
theorem readHead_stream (stream : Takes link s bytes after) :
    let run := readHead (m := StateM σ) link s
    let said := HeadScanner.new.answers bytes
    (∀ n head later, said = more n ++ .ok (.complete head) :: later →
      (run.1.1 = .ok head ↔ n + 1 ≤ maxHeadLength) ∧
      (n + 1 ≤ maxHeadLength → ∃ taken record, Takes link s (bytes.take (n + 1)) taken ∧
        run = ((.ok head, link), noted [record] taken))) ∧
    (∀ n defect later, said = more n ++ .error defect :: later → n + 1 ≤ maxHeadLength →
      ∃ taken, Takes link s (bytes.take (n + 1)) taken ∧
        run = givenUp link (.malformedResponse defect) taken) ∧
    (said.take maxHeadLength = more maxHeadLength →
      ∃ taken, Takes link s (bytes.take maxHeadLength) taken ∧
        run = givenUp link (.malformedResponse .headTooLong) taken) ∧
    (said = more bytes.length → bytes.length < maxHeadLength →
      (∀ fault ended, link.receive (m := StateM σ) 1 after = (.error fault, ended) →
        run = givenUp link (.transport fault) ended) ∧
      ∀ fits ended, link.receive (m := StateM σ) 1 after = (.ok ⟨[], fits⟩, ended) →
        run = givenUp link (.malformedResponse (if HeadScanner.fieldMatcher.firstHit? bytes = none
          then .noLength else .headUnfinished)) ended) ∧
    (run.1.2.isOpen = true ↔ ∃ head, run.1.1 = .ok head) ∧
    ResponseDefect.headTooLong.message = "header section too long" ∧
    ResponseDefect.headUnfinished.message = "stream ended before end of header" ∧
    ResponseDefect.noLength.message = "content-length field not found" := by
  intro run said
  refine ⟨?_, ?_, readHead_tooLong stream, ?_, isOpen_readHead link s, rfl, rfl, rfl⟩
  · intro n head later said
    exact ⟨readHead_ok_iff stream said, readHead_complete stream said⟩
  · intro n defect later said short
    exact readHead_refused stream said short
  · intro said short
    obtain ⟨scanner, budget, found, scanned⟩ := scanHead_undecided stream said short
    constructor
    · intro fault ended answer
      exact readHead_failed (scanned.trans (scanHead_fault answer scanner budget))
    · intro fits ended answer
      have missing := readHead_failed (scanned.trans (scanHead_ended answer scanner budget))
      rw [found] at missing
      cases hit : HeadScanner.fieldMatcher.firstHit? bytes with
      | none => rwa [hit] at missing
      | some i => rwa [hit] at missing

end Head

/-- A connection that delivers a head in two pieces, the second one with a byte of the body. -/
def twoPieces : Script where
  streams := [⟨[contentLengthField, HeadScanner.seven.drop 15], false, true⟩]

theorem readHead_stream_seven : ∃ taken record,
    Takes (.ofConnection ⟨0⟩) twoPieces (HeadScanner.seven.take 20) taken ∧
      readHead (m := StateM Script) (.ofConnection ⟨0⟩) twoPieces =
        ((.ok ⟨7⟩, .ofConnection ⟨0⟩), noted [record] taken) := by
  have unread : twoPieces.Unread ⟨0⟩ (HeadScanner.seven ++ []) false :=
    ⟨[contentLengthField, HeadScanner.seven.drop 15], ⟨rfl, by decide +kernel⟩, by decide +kernel⟩
  have said : HeadScanner.new.answers HeadScanner.seven =
      more 19 ++ .ok (.complete ⟨7⟩) :: complete 1 7 := by rfl
  obtain ⟨after, stream, -⟩ := takes_of_unread unread
  exact ((readHead_stream stream).1 19 ⟨7⟩ _ said).2 (by decide)

end CoreLocator.Response
