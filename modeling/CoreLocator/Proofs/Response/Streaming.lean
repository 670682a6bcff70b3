import CoreLocator.Proofs.Response.Fetch
import CoreLocator.Proofs.Response.Outcome

/-! Reading a body one call after the other, with nothing known of the connection and no look at
the size of the buffer beforehand. Each call that asks for another one has brought a byte that the
buffer had room for and the body still lacked, so the calls come to an end. -/
namespace CoreLocator.Response
open Network

inductive Answer
  | incomplete
  | complete
  | failed (failure : Failure)

def Progress.answer {κ : Type} {r : Reception κ} : Progress r → Answer
  | .incomplete _ _ => .incomplete
  | .complete _ => .complete
  | .failed failure _ => .failed failure

/-- What a read answers that no other one follows. A complete body left room for a zero. -/
inductive Answer.Final (capacity documentSize : Nat) : Answer → Prop
  | complete : documentSize ≤ capacity → Final capacity documentSize .complete
  | failed {failure : Failure} : ReadFailure capacity documentSize failure →
      Final capacity documentSize (.failed failure)

section Calls
variable {σ κ : Type} [Network (StateM σ) κ] [Log (StateM σ)]

def Reception.answers (r : Reception κ) (documentSize : Nat) (s : σ) : List Answer :=
  match r.fetch (m := StateM σ) documentSize s with
  | (.incomplete next _less, after) => .incomplete :: next.answers documentSize after
  | (.complete _, _) => [.complete]
  | (.failed failure _, _) => [.failed failure]
termination_by r.room

variable {r next : Reception κ} {documentSize : Nat} {s after : σ}

theorem answers_of_incomplete {less : next.room < r.room}
    (fetched : r.fetch (m := StateM σ) documentSize s = (.incomplete next less, after)) :
    r.answers documentSize s = .incomplete :: next.answers documentSize after := by
  rw [Reception.answers, fetched]

theorem answers_of_last {progress : Progress r} (last : progress.isIncomplete = false)
    (fetched : r.fetch (m := StateM σ) documentSize s = (progress, after)) :
    r.answers documentSize s = [progress.answer] := by
  rw [Reception.answers, fetched]
  cases progress with
  | incomplete next less => contradiction
  | complete next => rfl
  | failed failure next => rfl

/-- One call: where it is the last one, it has found the document to fit or something to blame. -/
theorem final_of_fetch {progress : Progress r} (last : progress.isIncomplete = false)
    (fetched : r.fetch (m := StateM σ) documentSize s = (progress, after)) :
    progress.answer.Final r.capacity documentSize := by
  cases progress with
  | incomplete next less => contradiction
  | complete next =>
    obtain ⟨progress, between, pulled⟩ : ∃ progress after,
        r.pull (m := StateM σ) documentSize s = (progress, after) := ⟨_, _, rfl⟩
    have arrived := (pull_arrived r documentSize s).1
    obtain ⟨-, complete, -, -⟩ := fetch_of_pull pulled
    rw [pulled] at arrived
    rw [fetched] at complete
    obtain ⟨-, -, inside⟩ := arrived.isComplete complete.symm
    exact .complete (Nat.le_of_pred_lt inside)
  | failed failure next => exact .failed (failure_of_fetch (congrArg Prod.fst fetched))

/-- A run of calls: no more of them expect another one than there is room for bytes, or than there
are bytes still missing. -/
theorem answers_bounded (r : Reception κ) (documentSize : Nat) (s : σ) :
    ∃ count last, r.answers documentSize s = List.replicate count .incomplete ++ [last] ∧
      last.Final r.capacity documentSize ∧
      count ≤ r.room ∧ count ≤ documentSize - 1 - r.received := by
  induction room : r.room using Nat.strongRecOn generalizing r s with
  | ind room ih =>
    obtain ⟨progress, after, fetched⟩ : ∃ progress after,
        r.fetch (m := StateM σ) documentSize s = (progress, after) := ⟨_, _, rfl⟩
    cases more : progress.isIncomplete with
    | false =>
      refine ⟨0, progress.answer, answers_of_last more fetched, final_of_fetch more fetched, ?_, ?_⟩
      · exact Nat.zero_le _
      · exact Nat.zero_le _
    | true =>
      obtain ⟨next, less⟩ | _ | _ := progress
      · have capacity : next.capacity = r.capacity := by
          have same := capacity_fetch r documentSize s
          rwa [fetched] at same
        obtain ⟨grown, short⟩ := received_of_incomplete fetched
        obtain ⟨count, last, rest, final, within, missing⟩ :=
          ih next.room (room ▸ less) next after rfl
        refine ⟨count + 1, last, ?_, capacity ▸ final, ?_, ?_⟩
        · rw [answers_of_incomplete fetched, rest]
          rfl
        · omega
        · omega
      · contradiction
      · contradiction

/-- The answers are those of reading until the body is complete. -/
theorem getLast?_answers (r : Reception κ) (documentSize : Nat) (s : σ) (failure : Failure) :
    (r.answers documentSize s).getLast? = some (.failed failure) ↔
      (r.finish (m := StateM σ) documentSize s).1.1 = .error failure := by
  induction room : r.room using Nat.strongRecOn generalizing r s with
  | ind room ih =>
    obtain ⟨progress, after, fetched⟩ : ∃ progress after,
        r.fetch (m := StateM σ) documentSize s = (progress, after) := ⟨_, _, rfl⟩
    rw [Reception.finish, bind_of_eq fetched]
    cases progress with
    | incomplete next less =>
      have rest := ih next.room (room ▸ less) next after rfl
      obtain ⟨count, last, same, -⟩ := answers_bounded next documentSize after
      rw [answers_of_incomplete fetched]
      rw [same] at rest ⊢
      rwa [← List.cons_append, List.getLast?_concat, ← List.getLast?_concat]
    | complete next =>
      rw [answers_of_last rfl fetched]
      constructor
      · intro same
        cases Option.some.inj same
      · intro same
        cases same
    | failed failure' next =>
      rw [answers_of_last rfl fetched]
      exact ⟨fun same => congrArg Except.error (Answer.failed.inj (Option.some.inj same)),
        fun same => congrArg (some ∘ Answer.failed) (Except.error.inj same)⟩

end Calls

/-- From an empty reception on the calls end, over whatever connection and for every size of the
buffer and of the document, and fail if and as reading to the end does. A document larger than the
buffer is never complete. -/
theorem answers_end {σ κ : Type} [Network (StateM σ) κ] [Log (StateM σ)] (link : Link κ)
    (buffer : Bytes) (documentSize : Nat) (s : σ) :
    let answers := Reception.answers ⟨link, buffer, 0⟩ documentSize s
    ∃ count last, answers = List.replicate count .incomplete ++ [last] ∧ last ≠ .incomplete ∧
      answers.length ≤ min buffer.length documentSize + 1 ∧
      (∀ failure, last = .failed failure ↔ (Reception.finish (m := StateM σ) ⟨link, buffer, 0⟩
        documentSize s).1.1 = .error failure) ∧
      (buffer.length < documentSize → ∃ failure, last = .failed failure ∧
        ∀ capacity required, failure = .bufferTooSmall capacity required →
          capacity = buffer.length ∧ required = documentSize) := by
  intro answers
  obtain ⟨count, last, same, final, within, missing⟩ :=
    answers_bounded ⟨link, buffer, 0⟩ documentSize s
  have length : answers.length = count + 1 := by
    rw [show answers = _ from same, List.length_append, List.length_replicate]
    rfl
  simp only [Reception.room, Reception.capacity] at within missing
  refine ⟨count, last, same, ?_, by omega, fun failure => ?_, fun small => ?_⟩
  · cases final <;> nofun
  · have told := getLast?_answers ⟨link, buffer, 0⟩ documentSize s failure
    rwa [same, List.getLast?_concat, Option.some.injEq] at told
  · cases final with
    | complete fits => exact absurd fits (Nat.not_le.mpr small)
    | failed ended =>
      refine ⟨_, rfl, fun capacity required blamed => ?_⟩
      subst blamed
      cases ended
      exact ⟨rfl, rfl⟩

end CoreLocator.Response
