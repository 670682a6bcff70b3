import Mathlib.Order.Bounds.Basic
import CoreLocator.Retry
import CoreLocator.Proofs.Discovery.Isolation

/-! How many attempts are made, and what is made of the last one. The attempts are followed one by
one on any network, with the pauses between them, and the answer is read off the first that settles
the matter or the last that is allowed. -/
namespace CoreLocator.Retry
open Network Network.Script

structure Turn (σ : Type) where
  session : Session
  world : σ

section Attempts
variable {σ κ : Type} [Network (StateM σ) κ] [Log (StateM σ)]
variable (s : Settings)

def Turn.attempt (turn : Turn σ) : Except CoreLocator.Failure CoreAddress × Turn σ :=
  let ((outcome, session), world) := turn.session.discover (m := StateM σ) s.request turn.world
  (outcome, ⟨session, world⟩)

variable [Pause (StateM σ)]

def Turn.rest (turn : Turn σ) : Turn σ :=
  { turn with world := (Pause.pause (m := StateM σ) s.retryWait turn.world).2 }

def turnAfter (start : Turn σ) : (made : Nat) → Turn σ
  | 0 => start
  | made + 1 => ((turnAfter start made).attempt s).2.rest s

/-- The outcome of attempt number `i`; the first has the number one. -/
def outcome (start : Turn σ) (i : Nat) : Except CoreLocator.Failure CoreAddress :=
  ((turnAfter s start (i - 1)).attempt s).1

def leftBy (start : Turn σ) (i : Nat) : σ := ((turnAfter s start (i - 1)).attempt s).2.world

end Attempts

/-- Another attempt would end in the same way. -/
def Conclusive : Except CoreLocator.Failure CoreAddress → Prop
  | .ok _ => True
  | .error (.invalidRequest _) => True
  | .error (.bufferTooSmall _ _) => True
  | .error _ => False

theorem conclusive_ok (core : CoreAddress) : Conclusive (.ok core) := trivial

theorem conclusive_error {failure : CoreLocator.Failure} :
    Conclusive (.error failure) ↔ failure.isRetryable = false := by
  cases failure <;> simp [Conclusive, CoreLocator.Failure.isRetryable]

def report (s : Settings) (k : Nat) :
    Except CoreLocator.Failure CoreAddress → Except Failure CoreAddress
  | .ok core => .ok core
  | .error failure => .error (discoverFrom.verdict s k failure)

section Runs
variable {σ κ : Type} [Network (StateM σ) κ] [Log (StateM σ)] [Pause (StateM σ)]
variable {s : Settings} {turn start : Turn σ} {made attempt more : Nat}

theorem discoverFrom_last (last : more = 0 ∨ Conclusive (turn.attempt s).1) :
    discoverFrom (m := StateM σ) s turn.session attempt more turn.world =
      (report s attempt (turn.attempt s).1, (turn.attempt s).2.world) := by
  unfold Turn.attempt at last ⊢
  cases more with
  | zero =>
    rw [discoverFrom, bind_apply]
    generalize turn.session.discover (m := StateM σ) s.request turn.world = answer
    obtain ⟨⟨failure | core, session⟩, world⟩ := answer
    · rfl
    · rfl
  | succ more =>
    rw [discoverFrom, bind_apply]
    generalize turn.session.discover (m := StateM σ) s.request turn.world = answer at last ⊢
    obtain ⟨⟨failure | core, session⟩, world⟩ := answer
    · have final : failure.isRetryable = false := by
        rcases last with finished | settled
        · contradiction
        · exact conclusive_error.mp settled
      dsimp only
      rw [if_neg (Bool.eq_false_iff.mp final)]
      rfl
    · rfl

theorem discoverFrom_again (open' : ¬Conclusive (turn.attempt s).1) :
    discoverFrom (m := StateM σ) s turn.session attempt (more + 1) turn.world =
      let next := (turn.attempt s).2.rest s
      discoverFrom (m := StateM σ) s next.session (attempt + 1) more next.world := by
  unfold Turn.attempt at open' ⊢
  rw [discoverFrom, bind_apply]
  generalize turn.session.discover (m := StateM σ) s.request turn.world = answer at open' ⊢
  obtain ⟨⟨failure | core, session⟩, world⟩ := answer
  · have retried : failure.isRetryable = true := by
      apply Decidable.byContradiction
      intro final
      exact open' (conclusive_error.mpr (Bool.eq_false_iff.mpr final))
    dsimp only
    rw [if_pos retried, bind_apply]
    rfl
  · exact absurd (conclusive_ok core) open'

/-- Attempt number `k` is the last of those from number `first` on, with `more` allowed after that
one: no attempt before it settles the matter, and it does so itself or is the last one allowed. -/
structure LastFrom (s : Settings) (start : Turn σ) (first more k : Nat) : Prop where
  reached : first ≤ k
  allowed : k ≤ first + more
  unsettled : ∀ i, first ≤ i → i < k → ¬Conclusive (outcome s start i)
  ends : k = first + more ∨ Conclusive (outcome s start k)

theorem discoverFrom_turnAfter (start : Turn σ) (made more : Nat) :
    ∃ k, LastFrom s start (made + 1) more k ∧
      discoverFrom (m := StateM σ) s (turnAfter s start made).session (made + 1) more
          (turnAfter s start made).world =
        (report s k (outcome s start k), leftBy s start k) := by
  induction more generalizing made with
  | zero =>
    refine ⟨made + 1, ⟨Nat.le_refl _, Nat.le_refl _, ?_, .inl rfl⟩, discoverFrom_last (.inl rfl)⟩
    intro i reached before
    omega
  | succ more ih =>
    by_cases settled : Conclusive (outcome s start (made + 1))
    · refine ⟨made + 1, ⟨Nat.le_refl _, by omega, ?_, .inr settled⟩,
        discoverFrom_last (.inr settled)⟩
      intro i reached before
      omega
    · obtain ⟨k, last, answered⟩ := ih (made + 1)
      refine ⟨k, ⟨?_, ?_, ?_, ?_⟩, ?_⟩
      · exact Nat.le_of_succ_le last.reached
      · have allowed := last.allowed
        omega
      · intro i reached before
        rcases Nat.eq_or_lt_of_le reached with rfl | later
        · exact settled
        · exact last.unsettled i later before
      · rcases last.ends with all | ends
        · exact .inl (by omega)
        · exact .inr ends
      · exact (discoverFrom_again settled).trans answered

end Runs

section Counter
variable {m : Type → Type} {κ : Type} [Monad m] [Network m κ] [Log m] [Pause m]

/-- The attempts with their number in 32 bits, up to the one with the number that the settings give.
There is no answer if the number has to be raised and is the largest already. -/
def countedFrom (s : Settings) (session : Session) (attempt : UInt32) :
    m (Option (Except Failure CoreAddress)) := do
  match ← session.discover s.request with
  | (.ok core, _) => pure (some (.ok core))
  | (.error failure, session) =>
    if _again : failure.isRetryable ∧ attempt < s.attempts then
      Pause.pause s.retryWait
      if _room : attempt.toNat + 1 < UInt32.size then countedFrom s session (attempt + 1)
      else pure none
    else pure (some (.error (discoverFrom.verdict s attempt.toNat failure)))
termination_by s.attempts.toNat - attempt.toNat
decreasing_by
  have less : attempt.toNat < s.attempts.toNat := UInt32.lt_iff_toNat_lt.mp _again.2
  have raised : (attempt + 1).toNat = attempt.toNat + 1 := by
    rw [UInt32.toNat_add]
    exact Nat.mod_eq_of_lt _room
  omega

variable {σ κ : Type} [Network (StateM σ) κ] [Log (StateM σ)] [Pause (StateM σ)]

/-- The number always has room, for the settings give one that has. -/
theorem countedFrom_eq (s : Settings) (session : Session) {attempt : UInt32} {more : Nat}
    (left : more = s.attempts.toNat - attempt.toNat) (world : σ) :
    countedFrom (m := StateM σ) s session attempt world =
      let ended := discoverFrom (m := StateM σ) s session attempt.toNat more world
      (some ended.1, ended.2) := by
  induction more generalizing session attempt world with
  | zero =>
    have spent : ¬attempt < s.attempts := by
      rw [UInt32.lt_iff_toNat_lt]
      omega
    rw [countedFrom, discoverFrom, bind_apply, bind_apply]
    generalize session.discover (m := StateM σ) s.request world = answer
    obtain ⟨⟨failure | core, next⟩, after⟩ := answer
    · dsimp only
      rw [dif_neg fun again => spent again.2]
      rfl
    · rfl
  | succ more ih =>
    have less : attempt < s.attempts := by
      rw [UInt32.lt_iff_toNat_lt]
      omega
    have room : attempt.toNat + 1 < UInt32.size := by
      have largest := s.attempts.toNat_lt
      exact Nat.lt_of_le_of_lt (by omega) largest
    have raised : (attempt + 1).toNat = attempt.toNat + 1 := by
      rw [UInt32.toNat_add]
      exact Nat.mod_eq_of_lt room
    rw [countedFrom, discoverFrom, bind_apply, bind_apply]
    generalize session.discover (m := StateM σ) s.request world = answer
    obtain ⟨⟨failure | core, next⟩, after⟩ := answer
    · dsimp only
      by_cases retried : failure.isRetryable = true
      · rw [dif_pos ⟨retried, less⟩, if_pos retried, bind_apply, bind_apply, dif_pos room,
          ih next (by omega), raised]
      · rw [dif_neg fun again => retried again.1, if_neg retried]
        rfl
    · rfl

end Counter

section Alike
variable {s : Settings} {script : Script}

theorem alike_turnAfter (s : Settings) (start : Turn Script) (made : Nat) :
    (turnAfter s start made).session.capacity = start.session.capacity ∧
      (turnAfter s start made).world.fresh = start.world.fresh := by
  induction made with
  | zero => exact ⟨rfl, rfl⟩
  | succ made ih =>
    obtain ⟨size, fresh⟩ := ih
    let turn := turnAfter s start made
    constructor
    · exact (turn.session.capacity_discover s.request turn.world).trans size
    · exact (turn.session.fresh_discover s.request turn.world).trans fresh

theorem outcome_eq_alone (s : Settings) (start : Turn Script) (i : Nat) :
    outcome s start i = (start.session.alone s.request start.world).1 := by
  obtain ⟨size, fresh⟩ := alike_turnAfter s start (i - 1)
  let turn := turnAfter s start (i - 1)
  have ended := (turn.session.discover_eq_alone s.request turn.world).1
  rw [Session.alone_of_fresh start.session s.request start.world size fresh] at ended
  exact ended

theorem journal_attempt (s : Settings) (start : Turn Script) (made : Nat) :
    ((turnAfter s start made).attempt s).2.world.journal =
      (turnAfter s start made).world.journal ++
        (start.session.alone s.request start.world).2.journal := by
  obtain ⟨size, fresh⟩ := alike_turnAfter s start made
  let turn := turnAfter s start made
  have ended := (turn.session.discover_eq_alone s.request turn.world).2
  rw [Session.alone_of_fresh start.session s.request start.world size fresh] at ended
  exact congrArg Script.journal ended

/-- What the attempts leave is what the first one would leave on its own, once for each. -/
theorem journal_turnAfter (s : Settings) (start : Turn Script) (made : Nat) :
    (turnAfter s start made).world.journal = start.world.journal ++
      Journal.join (List.replicate made (start.session.alone s.request start.world).2.journal) := by
  induction made with
  | zero => exact start.world.journal.append_join_nil.symm
  | succ made ih =>
    have one := journal_attempt s start made
    rw [ih] at one
    rw [List.replicate_succ', Journal.join_concat, ← Journal.append_assoc]
    exact one

theorem journal_leftBy (s : Settings) (start : Turn Script) {k : Nat} (begun : 1 ≤ k) :
    (leftBy s start k).journal = start.world.journal ++
      Journal.join (List.replicate k (start.session.alone s.request start.world).2.journal) := by
  obtain ⟨made, rfl⟩ := Nat.exists_eq_add_of_le' begun
  have one := journal_attempt s start made
  rw [journal_turnAfter] at one
  rw [List.replicate_succ', Journal.join_concat, ← Journal.append_assoc]
  exact one

end Alike

/-- What is made of the outcome of the last of `k` attempts. -/
structure Concludes (s : Settings) (k : Nat) (last : Except CoreLocator.Failure CoreAddress)
    (answer : Except Failure CoreAddress) : Prop where
  found : ∀ core, answer = .ok core ↔ last = .ok core
  tooLarge : ∀ capacity required, last = .error (.bufferTooSmall capacity required) →
    let told : Failure := .documentTooLarge required s.bufferSize.toNat
    answer = .error told ∧ told.messages =
      [s!"discovery document needs {required} bytes, buffer_size is {s.bufferSize.toNat}; "
        ++ "increase buffer_size"]
  gaveUp : ∀ failure, last = .error failure →
    (∀ capacity required, failure ≠ .bufferTooSmall capacity required) →
    let told : Failure := .gaveUp k failure
    answer = .error told ∧
      told.messages = s!"discovery failed after {k} attempt(s)" :: failure.messages

theorem concludes_report (s : Settings) (k : Nat) (last : Except CoreLocator.Failure CoreAddress) :
    Concludes s k last (report s k last) where
  found core := by
    cases last with
    | ok other =>
      constructor
      · exact fun same => congrArg Except.ok (Except.ok.inj same)
      · exact fun same => congrArg Except.ok (Except.ok.inj same)
    | error failure =>
      constructor
      · intro same
        cases same
      · intro same
        cases same
  tooLarge capacity required small := by
    subst small
    exact ⟨rfl, rfl⟩
  gaveUp failure failed other := by
    subst failed
    cases failure with
    | bufferTooSmall capacity required => exact absurd rfl (other capacity required)
    | _ => exact ⟨rfl, rfl⟩

/-- The last of all attempts is the first that settles the matter, if it is allowed, and the last
allowed otherwise. -/
theorem LastFrom.isLeast {σ κ : Type} [Network (StateM σ) κ] [Log (StateM σ)] [Pause (StateM σ)]
    {s : Settings} {start : Turn σ} {k : Nat} (last : LastFrom s start 1 (s.attempts.toNat - 1) k)
    (allowed : 0 < s.attempts.toNat) :
    IsLeast {i | i = s.attempts.toNat ∨ 1 ≤ i ∧ Conclusive (outcome s start i)} k := by
  have bound := last.allowed
  constructor
  · rcases last.ends with all | settled
    · exact .inl (by omega)
    · exact .inr ⟨last.reached, settled⟩
  · rintro i (rfl | ⟨reached, settled⟩)
    · omega
    · apply Nat.le_of_not_lt
      intro before
      exact last.unsettled i reached before settled

/-- Attempts are made until one settles the matter or as many are made as are allowed, and the
answer is made of the outcome of the last one alone. A number of 32 bits counts them. On a scripted
network all end alike, so that there is one or as many as are allowed, and the journal is that of
one on its own so many times over. -/
theorem discover_attempts (s : Settings) :
    (s.attempts ≠ 0 → ∀ {σ κ : Type} [Network (StateM σ) κ] [Log (StateM σ)] [Pause (StateM σ)]
      (world : σ),
      let start : Turn σ := ⟨.ofCapacity s.bufferSize.toNat, world⟩
      let ended := discover (m := StateM σ) s world
      ∃ k, IsLeast {i | i = s.attempts.toNat ∨ 1 ≤ i ∧ Conclusive (outcome s start i)} k ∧
        ended.2 = leftBy s start k ∧ Concludes s k (outcome s start k) ended.1) ∧
    (∀ {σ κ : Type} [Network (StateM σ) κ] [Log (StateM σ)] [Pause (StateM σ)] (world : σ),
      let ended := discover (m := StateM σ) s world
      countedFrom (m := StateM σ) s (.ofCapacity s.bufferSize.toNat) 1 world =
        (some ended.1, ended.2)) ∧
    (s.attempts ≠ 0 → ∀ script : Script,
      let session := Session.ofCapacity s.bufferSize.toNat
      let start : Turn Script := ⟨session, script⟩
      let alone := session.alone s.request script
      (∀ i, outcome s start i = alone.1) ∧
        ∃ k, IsLeast {i | i = s.attempts.toNat ∨ 1 ≤ i ∧ Conclusive (outcome s start i)} k ∧
          (k = 1 ∨ k = s.attempts.toNat) ∧
          (discover (m := StateM Script) s script).2.journal =
            script.journal ++ Journal.join (List.replicate k alone.2.journal)) := by
  have positive (allowed : s.attempts ≠ 0) : 0 < s.attempts.toNat := by
    apply Nat.pos_of_ne_zero
    intro zero
    exact allowed (UInt32.toNat_inj.mp zero)
  refine ⟨?_, ?_, ?_⟩
  · intro allowed σ κ _ _ _ world start ended
    obtain ⟨k, last, answered⟩ :=
      discoverFrom_turnAfter (s := s) start 0 (s.attempts.toNat - 1)
    have answered : ended = (report s k (outcome s start k), leftBy s start k) := answered
    refine ⟨k, last.isLeast (positive allowed), congrArg Prod.snd answered, ?_⟩
    rw [answered]
    exact concludes_report s k _
  · intro σ κ _ _ _ world ended
    exact countedFrom_eq s _ rfl world
  · intro allowed script session start alone
    refine ⟨outcome_eq_alone s start, ?_⟩
    obtain ⟨k, last, answered⟩ :=
      discoverFrom_turnAfter (s := s) start 0 (s.attempts.toNat - 1)
    have least := last.isLeast (positive allowed)
    refine ⟨k, least, ?_, ?_⟩
    · rcases least.1 with all | ⟨reached, settled⟩
      · exact .inr all
      · -- The first attempt ends like the one that settles the matter.
        rw [outcome_eq_alone, ← outcome_eq_alone s start 1] at settled
        exact .inl (Nat.le_antisymm (least.2 (.inr ⟨Nat.le_refl 1, settled⟩)) reached)
    · have left : (discover (m := StateM Script) s script).2 = leftBy s start k :=
        congrArg Prod.snd answered
      rw [left]
      exact journal_leftBy s start last.reached

/-- Without a route each of two attempts fails, and both are seen in the journal. -/
theorem discover_attempts_unrouted :
    let s : Settings := { endpoint := "gg", thingName := "t", bufferSize := 45, attempts := 2 }
    let script : Script := {}
    let session := Session.ofCapacity 45
    let start : Turn Script := ⟨session, script⟩
    let ended := discover (m := StateM Script) s script
    s.attempts ≠ 0 ∧ IsLeast {i | i = 2 ∨ 1 ≤ i ∧ Conclusive (outcome s start i)} 2 ∧
      ended.2 = leftBy s start 2 ∧
      Concludes s 2 (.error (.transport (.noRoute "gg" 8443))) ended.1 ∧
      ended.2.journal = script.journal ++
        Journal.join (List.replicate 2 (session.alone s.request script).2.journal) := by
  intro s script session start ended
  have allowed : s.attempts ≠ 0 := by decide
  obtain ⟨every, -, scripted⟩ := discover_attempts s
  obtain ⟨alike, n, leastOfAlike, -, journal⟩ := scripted allowed script
  obtain ⟨k, least, left, concludes⟩ := every allowed script
  have failed (i : Nat) : outcome s start i = .error (.transport (.noRoute "gg" 8443)) :=
    (alike i).trans (by decide +kernel)
  obtain rfl : k = 2 := by
    rcases least.1 with all | ⟨-, settled⟩
    · exact all
    · have settled : Conclusive (outcome s start k) := settled
      rw [failed k] at settled
      exact settled.elim
  obtain rfl : n = 2 := leastOfAlike.unique least
  have concludes : Concludes s 2 (outcome s start 2) ended.1 := concludes
  rw [failed 2] at concludes
  exact ⟨allowed, least, left, concludes, journal⟩

end CoreLocator.Retry
