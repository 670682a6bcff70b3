import CoreLocator.Discovery
import CoreLocator.Proofs.Network.Scripted
import CoreLocator.Proofs.Response.Fetch

/-! Which failures a discovery can end with on whatever network. A request is refused before
anything is asked of the network or not at all, and but for the request and the buffer another
attempt may always do better. -/
namespace CoreLocator
open Network Network.Script Response

namespace Failure
variable {α β : Type} {failure : Failure}

/-- The request is not what the outcome blames. -/
def Admitted (outcome : Except Failure α) : Prop :=
  ∀ defect, outcome ≠ .error (.invalidRequest defect)

/-- Neither the request nor the buffer is what the outcome blames. -/
def Repeatable (outcome : Except Failure α) : Prop :=
  ∀ failure, outcome = .error failure → failure.isRetryable = true

theorem admitted_error : Admitted (.error failure : Except Failure α) ↔
    ∀ defect, failure ≠ .invalidRequest defect := by
  simp only [Admitted, Ne, Except.error.injEq]

theorem repeatable_error : Repeatable (.error failure : Except Failure α) ↔
    failure.isRetryable = true := by
  simp only [Repeatable, Except.error.injEq, forall_eq']

theorem repeatable_ok (a : α) : Repeatable (.ok a) :=
  nofun

theorem Admitted.passedOn (admitted : Admitted (.error failure : Except Failure α)) :
    Admitted (.error failure : Except Failure β) :=
  admitted_error.mpr (admitted_error.mp admitted)

theorem Repeatable.passedOn (repeatable : Repeatable (.error failure : Except Failure α)) :
    Repeatable (.error failure : Except Failure β) :=
  repeatable_error.mpr (repeatable_error.mp repeatable)

theorem Repeatable.admitted {outcome : Except Failure α} (repeatable : Repeatable outcome) :
    Admitted outcome := by
  rintro defect rfl
  exact Bool.false_ne_true (repeatable_error.mp repeatable)

end Failure

section Stages
variable {σ κ : Type} [Network (StateM σ) κ] [Log (StateM σ)]

theorem Response.repeatable_scanHead (link : Link κ) (scanner : HeadScanner) (budget : Nat)
    (s : σ) : Failure.Repeatable (scanHead (m := StateM σ) link scanner budget s).1 := by
  induction budget generalizing scanner s with
  | zero => exact Failure.repeatable_error.mpr rfl
  | succ budget ih =>
    rw [scanHead, bind_apply]
    generalize link.receive (m := StateM σ) 1 s = answer
    obtain ⟨fault | ⟨_ | ⟨b, rest⟩, fits⟩, after⟩ := answer
    · exact Failure.repeatable_error.mpr rfl
    · exact Failure.repeatable_error.mpr rfl
    · dsimp only
      obtain ⟨outcome, next⟩ := scanner.push b
      rcases outcome with defect | _ | head
      · exact Failure.repeatable_error.mpr rfl
      · exact ih next after
      · exact Failure.repeatable_ok head

theorem Response.repeatable_readHead (link : Link κ) (s : σ) :
    Failure.Repeatable (readHead (m := StateM σ) link s).1.1 := by
  have scanned := repeatable_scanHead link .new maxHeadLength s
  rw [readHead, bind_apply]
  generalize scanHead (m := StateM σ) link .new maxHeadLength s = answer at scanned ⊢
  obtain ⟨failure | head, after⟩ := answer
  · exact scanned.passedOn
  · exact Failure.repeatable_ok head

/-- The request is not what a read of the body ends on. -/
def Response.Progress.Admitted {r : Reception κ} : Progress r → Prop
  | .failed failure _ => ∀ defect, failure ≠ .invalidRequest defect
  | _ => True

theorem Response.ReadFailure.admitted {capacity documentSize : Nat} {failure : Failure}
    (ended : ReadFailure capacity documentSize failure) :
    ∀ defect, failure ≠ .invalidRequest defect := by
  cases ended <;> nofun

theorem Response.admitted_fetch (r : Reception κ) (documentSize : Nat) (s : σ) :
    (r.fetch (m := StateM σ) documentSize s).1.Admitted := by
  obtain ⟨progress, fetched⟩ : ∃ progress,
      (r.fetch (m := StateM σ) documentSize s).1 = progress := ⟨_, rfl⟩
  rw [fetched]
  cases progress with
  | failed failure next => exact (failure_of_fetch fetched).admitted
  | _ => trivial

theorem Response.admitted_finish (r : Reception κ) (documentSize : Nat) (s : σ) :
    Failure.Admitted (r.finish (m := StateM σ) documentSize s).1.1 := by
  induction room : r.room using Nat.strongRecOn generalizing r s with
  | ind room ih =>
    have fetched := admitted_fetch r documentSize s
    rw [Reception.finish, bind_apply]
    generalize r.fetch (m := StateM σ) documentSize s = answer at fetched ⊢
    obtain ⟨progress, after⟩ := answer
    cases progress with
    | incomplete next less => exact ih next.room (room ▸ less) next after rfl
    | complete next => rintro defect ⟨⟩
    | failed failure next => exact fun defect same => fetched defect (Except.error.inj same)

theorem Response.admitted_receiveDocument (link : Link κ) (buffer : Bytes) (head : Head) (s : σ) :
    Failure.Admitted (receiveDocument (m := StateM σ) link buffer head s).1.1 := by
  unfold receiveDocument
  split
  · exact nofun
  · exact admitted_finish _ _ s

theorem Selection.repeatable_probe (ca : Bytes) (tried : Nat) (candidates : List Candidate)
    (s : σ) : Failure.Repeatable (probe (m := StateM σ) (κ := κ) ca tried candidates s).1 := by
  induction candidates generalizing tried s with
  | nil => exact Failure.repeatable_error.mpr rfl
  | cons c rest ih =>
    rw [probe]
    split
    · cases c.selected? with
      | none => exact ih (tried + 1) _
      | some selected =>
        dsimp only
        rw [bind_apply]
        generalize Network.connect (m := StateM σ) _ s = answer
        obtain ⟨fault | connection, after⟩ := answer
        · exact ih (tried + 1) _
        · exact Failure.repeatable_ok selected
    · exact ih (tried + 1) _

theorem Selection.repeatable_choose (selection : Selection) (document ca : Bytes) (s : σ) :
    Failure.Repeatable (selection.choose (m := StateM σ) (κ := κ) document ca s).1 := by
  cases selection with
  | automatic => exact repeatable_probe ca 0 (Candidate.list document) s
  | manual index =>
    dsimp only [choose]
    generalize (Candidate.at? document index).bind Candidate.selected? = found
    cases found with
    | none => exact Failure.repeatable_error.mpr rfl
    | some selected => exact Failure.repeatable_ok selected

theorem Discovery.repeatable_interpret (document : Bytes) (selection : Selection) (s : σ) :
    Failure.Repeatable (interpret (m := StateM σ) (κ := κ) document selection s).1 := by
  unfold interpret
  cases Document.validate document with
  | error defect => exact Failure.repeatable_error.mpr rfl
  | ok _ =>
    dsimp only
    unfold Document.require
    cases Document.search? document Document.certificatePath with
    | none => exact Failure.repeatable_error.mpr rfl
    | some raw =>
      dsimp only
      cases Certificate.decode raw with
      | error defect => exact Failure.repeatable_error.mpr rfl
      | ok certificate =>
        dsimp only
        rw [bind_apply]
        have chosen := Selection.repeatable_choose (κ := κ) selection document certificate s
        generalize selection.choose (m := StateM σ) document certificate s = choice
          at chosen ⊢
        obtain ⟨failure | selected, after⟩ := choice
        · exact chosen.passedOn
        · exact Failure.repeatable_ok _

/-- A run fails as the stage does in which it stops, or ends as its document is interpreted. -/
theorem Discovery.run_outcome (request : DiscoveryRequest) (buffer : Bytes) (s : σ) :
    let outcome := (run (m := StateM σ) (κ := κ) request buffer s).1.1
    (∃ failure, outcome = .error failure ∧
      (start (m := StateM σ) (κ := κ) request.endpoint request.thingName buffer s).1.1 =
        .error failure) ∨
    (∃ failure link before, outcome = .error failure ∧
      (readHead (m := StateM σ) (κ := κ) link before).1.1 = .error failure) ∨
    (∃ failure link written head before, outcome = .error failure ∧
      (receiveDocument (m := StateM σ) (κ := κ) link written head before).1.1 = .error failure) ∨
    ∃ document before,
      outcome = (interpret (m := StateM σ) (κ := κ) document request.selection before).1 := by
  intro outcome
  simp only [outcome, run, bind_apply]
  cases started : start (m := StateM σ) request.endpoint request.thingName buffer s with
  | mk begun opened =>
  obtain ⟨failure | link, written⟩ := begun
  · exact .inl ⟨failure, rfl, rfl⟩
  dsimp only
  rw [bind_apply]
  cases scanned : readHead (m := StateM σ) link opened with
  | mk read behind =>
  obtain ⟨failure | head, kept⟩ := read
  · exact .inr (.inl ⟨failure, link, opened, rfl, congrArg (·.1.1) scanned⟩)
  dsimp only
  rw [bind_apply]
  cases streamed : receiveDocument (m := StateM σ) kept written head behind with
  | mk received after =>
  obtain ⟨failure | length, reception⟩ := received
  · exact .inr (.inr (.inl ⟨failure, kept, written, head, behind, rfl, congrArg (·.1.1) streamed⟩))
  dsimp only
  rw [bind_apply, bind_apply, bind_apply]
  generalize (Log.debug (m := StateM σ) _ _).2 = before
  refine .inr (.inr (.inr ⟨reception.buffer.take length, before, ?_⟩))
  cases interpret (m := StateM σ) (reception.buffer.take length) request.selection before with
  | mk meant final => cases meant <;> rfl

section Named
variable {request : DiscoveryRequest} (named : Request.checkName request.thingName = .ok ())
include named

theorem Discovery.admitted_start (endpoint : Endpoint) (buffer : Bytes) (s : σ) :
    Failure.Admitted (start (m := StateM σ) (κ := κ) endpoint request.thingName buffer s).1.1 := by
  unfold start Request.write
  rw [named]
  dsimp only
  by_cases small : buffer.length < (Request.bytes request.thingName).length
  · rw [if_pos small]
    exact nofun
  rw [if_neg small]
  dsimp only
  rw [bind_apply]
  generalize Network.connect (m := StateM σ) endpoint s = answer
  obtain ⟨fault | c, connected⟩ := answer
  · exact nofun
  · dsimp only
    rw [bind_apply]
    generalize Link.sendAll (m := StateM σ) _ _ connected = sending
    obtain ⟨fault | sent, after⟩ := sending
    · exact nofun
    · exact nofun

/-- A request for a thing with a proper name is not refused. -/
theorem Discovery.admitted_run (buffer : Bytes) (s : σ) :
    Failure.Admitted (run (m := StateM σ) (κ := κ) request buffer s).1.1 := by
  have ends := run_outcome (κ := κ) request buffer s
  dsimp only at ends
  rcases ends with ⟨failure, same, stopped⟩ | ⟨failure, link, before, same, stopped⟩ |
    ⟨failure, link, written, head, before, same, stopped⟩ | ⟨document, before, same⟩
  · rw [same]
    have started := admitted_start (κ := κ) named request.endpoint buffer s
    exact (stopped ▸ started).passedOn
  · rw [same]
    have scanned := (repeatable_readHead link before).admitted
    exact (stopped ▸ scanned).passedOn
  · rw [same]
    have received := admitted_receiveDocument link written head before
    exact (stopped ▸ received).passedOn
  · rw [same]
    exact (repeatable_interpret document request.selection before).admitted

end Named
end Stages
end CoreLocator
