import CoreLocator.Candidate
import CoreLocator.Proofs.Network.Scripted

/-! Choosing among candidates on a scripted network. Probing asks the usable candidates in order, up
to the first that accepts, and leaves nothing open. -/
namespace CoreLocator
open Network Network.Script

namespace Candidate

/-- The numbers of ports are kept as they are read. -/
theorem port?_eq_some {text : Bytes} {port : UInt16} : port? text = some port ↔
    port.toNat = Decimal.leading text ∧ 1 ≤ Decimal.leading text ∧
      Decimal.leading text ≤ 65535 := by
  unfold port?
  generalize Decimal.leading text = n
  dsimp only
  split
  · next range =>
    rw [Option.some.injEq, ← UInt16.toNat_inj, Nat.toUInt16_eq, UInt16.toNat_ofNat']
    omega
  · next outside =>
    constructor
    · rintro ⟨⟩
    · rintro ⟨-, range⟩
      exact absurd ⟨range.1, by omega⟩ outside

/-- The candidate, if it is worth a probe. -/
def usable? (c : Candidate) : Option Selected := if isValidAddress c.host then c.selected? else none

end Candidate

namespace Selection

variable {script before middle after : Script} {ca : Bytes} {tried : Nat} {c : Candidate}
  {s : Selected}

def probeEndpoint (ca : Bytes) (s : Selected) : Endpoint := ⟨s.host, s.port, some ca⟩

def accepts (script : Script) (s : Selected) : Bool := script.accepts s.host s.port

theorem accepts_note (script : Script) (r : Log.Record) :
    accepts (script.note r) = accepts script := rfl

theorem accepts_asked (script : Script) (e : Endpoint) :
    accepts (script.asked e) = accepts script := rfl

/-- Between the two states these have been probed, and so many connections have come about and been
taken down. -/
structure Probes (ca : Bytes) (asked : List Selected) (closed : Nat) (before after : Script) :
    Prop where
  routes : after.routes = before.routes
  connects : after.journal.connects = before.journal.connects ++ asked.map fun s => (s.host, s.port)
  trust : after.journal.trust = before.journal.trust ++ asked.map fun _ => some ca
  sent : after.journal.sent = before.journal.sent
  disconnects : after.journal.disconnects = before.journal.disconnects + closed

theorem Probes.trans {asked more : List Selected} {closed later : Nat}
    (first : Probes ca asked closed before middle) (second : Probes ca more later middle after) :
    Probes ca (asked ++ more) (closed + later) before after where
  routes := second.routes.trans first.routes
  connects := by rw [second.connects, first.connects, List.map_append, List.append_assoc]
  trust := by rw [second.trust, first.trust, List.map_append, List.append_assoc]
  sent := second.sent.trans first.sent
  disconnects := by rw [second.disconnects, first.disconnects, Nat.add_assoc]

theorem Probes.note {asked : List Selected} {closed : Nat}
    (probes : Probes ca asked closed before after) (r : Log.Record) :
    Probes ca asked closed before (after.note r) :=
  ⟨probes.routes, probes.connects, probes.trust, probes.sent, probes.disconnects⟩

theorem probes_refl (ca : Bytes) (script : Script) : Probes ca [] 0 script script :=
  ⟨rfl, (List.append_nil _).symm, (List.append_nil _).symm, rfl, rfl⟩

theorem probes_note (ca : Bytes) (script : Script) (r : Log.Record) :
    Probes ca [] 0 script (script.note r) := (probes_refl ca script).note r

theorem probes_asked (ca : Bytes) (script : Script) (s : Selected) :
    Probes ca [s] 0 script (script.asked (probeEndpoint ca s)) := ⟨rfl, rfl, rfl, rfl, rfl⟩

/-- A candidate that is not usable costs a record and nothing else. -/
theorem probe_skipped (rest : List Candidate) (unusable : c.usable? = none) : ∃ record,
    probe (m := StateM Script) ca tried (c :: rest) script =
      probe (m := StateM Script) ca (tried + 1) rest (script.note record) := by
  unfold Candidate.usable? at unusable
  rw [probe]
  split at unusable
  · next valid =>
    rw [if_pos valid, unusable]
    exact ⟨_, rfl⟩
  · next invalid =>
    rw [if_neg invalid]
    exact ⟨_, rfl⟩

section Usable
variable (rest : List Candidate) (usable : c.usable? = some s)
include usable

theorem probe_refused (refused : accepts script s = false) : ∃ record,
    probe (m := StateM Script) ca tried (c :: rest) script =
      probe (m := StateM Script) ca (tried + 1) rest
        ((script.asked (probeEndpoint ca s)).note record) := by
  unfold Candidate.usable? at usable
  split at usable
  · next valid =>
    have answer := connect_of_refused (probeEndpoint ca s) refused
    rw [probe, if_pos valid, usable]
    dsimp only
    rw [bind_of_eq answer]
    exact ⟨_, rfl⟩
  · contradiction

theorem probe_accepted (accepted : accepts script s = true) : ∃ after,
    probe (m := StateM Script) ca tried (c :: rest) script = (.ok s, after) ∧
      Probes ca [s] 1 script after := by
  unfold Candidate.usable? at usable
  split at usable
  · next valid =>
    obtain ⟨chunks, failAtEnd, route⟩ := respond_of_accepts accepted
    have answer := connect_of_respond (probeEndpoint ca s) route
    obtain ⟨_, queued, -⟩ := unread_of_respond script (probeEndpoint ca s) chunks failAtEnd
    obtain ⟨stream, down⟩ := disconnect_of_up queued.up
    have closed : Probes ca [s] 1 script ((script.opened (probeEndpoint ca s) chunks
        failAtEnd).disconnect ⟨script.streams.length⟩) := by
      rw [down]
      exact ⟨rfl, rfl, rfl, rfl, rfl⟩
    rw [probe, if_pos valid, usable]
    dsimp only
    rw [bind_of_eq answer]
    exact ⟨_, rfl, closed.note _⟩
  · contradiction

end Usable

/-- The candidates that are asked: up to the first that accepts, or all of them. -/
def attempts (accepts : Selected → Bool) (usable : List Selected) : List Selected :=
  usable.takeWhile (fun s => !accepts s) ++ (usable.find? accepts).toList

/-- The first usable candidate that accepts is taken, and each before it is asked once. -/
theorem probe_outcome (ca : Bytes) (tried : Nat) (candidates : List Candidate) (script : Script) :
    let usable := candidates.filterMap Candidate.usable?
    let chosen := usable.find? (accepts script)
    ∃ after, probe (m := StateM Script) ca tried candidates script =
        ((match chosen with
          | some s => .ok s
          | none => .error (.noReachableCandidate (tried + candidates.length))), after) ∧
      Probes ca (attempts (accepts script) usable) chosen.toList.length script after := by
  intro usable chosen
  induction candidates generalizing tried script with
  | nil => exact ⟨_, rfl, probes_note ca script _⟩
  | cons c rest ih =>
    have count : tried + (c :: rest).length = tried + 1 + rest.length := by
      rw [List.length_cons, Nat.add_assoc, Nat.add_comm 1]
    cases worth : c.usable? with
    | none =>
      obtain ⟨record, step⟩ := probe_skipped rest worth
      obtain ⟨after, same, probes⟩ := ih (tried + 1) (script.note record)
      refine ⟨after, ?_, ?_⟩
      · rw [step, same]
        simp only [chosen, usable, List.filterMap_cons, worth, count]
        rfl
      · have all := (probes_note ca script record).trans probes
        simpa only [chosen, usable, List.filterMap_cons, worth, accepts_note, List.nil_append,
          Nat.zero_add] using all
    | some s =>
      cases reached : accepts script s with
      | true =>
        obtain ⟨after, step, probes⟩ := probe_accepted rest worth reached
        refine ⟨after, ?_, ?_⟩
        · simp only [chosen, usable, List.filterMap_cons, worth, List.find?_cons, reached]
          exact step
        · simpa [chosen, usable, worth, attempts, reached] using probes
      | false =>
        obtain ⟨record, step⟩ := probe_refused rest worth reached
        obtain ⟨after, same, probes⟩ := ih (tried + 1)
          ((script.asked (probeEndpoint ca s)).note record)
        refine ⟨after, ?_, ?_⟩
        · rw [step, same]
          simp only [chosen, usable, List.filterMap_cons, worth, List.find?_cons, reached, count]
          rfl
        · have all := ((probes_asked ca script s).note record).trans probes
          simpa [chosen, usable, worth, attempts, reached, accepts_note, accepts_asked] using all

/-- On equal routes the choice is the same. -/
theorem choose_of_routes {other : Script} (same : other.routes = script.routes)
    (selection : Selection) (document ca : Bytes) :
    (selection.choose (m := StateM Script) document ca other).1 =
      (selection.choose (m := StateM Script) document ca script).1 := by
  cases selection with
  | automatic =>
    have accepted : accepts other = accepts script := by
      funext s
      exact accepts_of_routes same s.host s.port
    dsimp only [choose]
    generalize Candidate.list document = candidates
    obtain ⟨_, outcome, -⟩ := probe_outcome ca 0 candidates script
    obtain ⟨_, outcome', -⟩ := probe_outcome ca 0 candidates other
    simp only [outcome, outcome', accepted]
  | manual index =>
    dsimp only [choose]
    generalize (Candidate.at? document index).bind Candidate.selected? = found
    cases found <;> rfl

/-- Only an automatic choice asks anyone, and what it takes is the last that it asked. -/
theorem choose_probes (selection : Selection) (document ca : Bytes) (script : Script) :
    ∃ outcome after asked closed, selection.choose (m := StateM Script) document ca script =
        (outcome, after) ∧ Probes ca asked closed script after ∧
      (asked ≠ [] → selection = .automatic) ∧
      ∀ s, selection = .automatic → outcome = .ok s →
        asked.getLast? = some s ∧ accepts script s = true := by
  cases selection with
  | automatic =>
    dsimp only [choose]
    generalize Candidate.list document = candidates
    obtain ⟨after, same, probes⟩ := probe_outcome ca 0 candidates script
    refine ⟨_, after, _, _, same, probes, fun _ => rfl, fun s _ taken => ?_⟩
    cases found : (candidates.filterMap Candidate.usable?).find? (accepts script) with
    | none => simp [found] at taken
    | some first =>
      obtain rfl : first = s := by simpa [found] using taken
      exact ⟨by simp [attempts, found], List.find?_some found⟩
  | manual index =>
    dsimp only [choose]
    generalize (Candidate.at? document index).bind Candidate.selected? = found
    cases found with
    | none => exact ⟨_, _, [], 0, rfl, probes_note ca script _, nofun, nofun⟩
    | some s => exact ⟨_, _, [], 0, rfl, probes_note ca script _, nofun, nofun⟩

end Selection
end CoreLocator
