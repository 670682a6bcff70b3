import CoreLocator.Proofs.Discovery.Simulation
import CoreLocator.Proofs.Network.History
import CoreLocator.Proofs.Response.Fetch

/-! Discoveries one after the other. Each runs on a buffer and a network that others have used, and
each returns what it would return with neither of them used before. -/
namespace CoreLocator
open Network Network.Script Response

section Capacity
variable {σ κ : Type} [Network (StateM σ) κ] [Log (StateM σ)]

/-- However many reads are made, the buffer keeps its size. -/
theorem Response.capacity_finish (r : Reception κ) (documentSize : Nat) (s : σ) :
    (r.finish (m := StateM σ) documentSize s).1.2.capacity = r.capacity := by
  induction room : r.room using Nat.strongRecOn generalizing r s with
  | ind room ih =>
    have same := capacity_fetch r documentSize s
    rw [Reception.finish, bind_apply]
    generalize r.fetch (m := StateM σ) documentSize s = fetched at same ⊢
    obtain ⟨progress, after⟩ := fetched
    cases progress with
    | incomplete next less => exact (ih next.room (room ▸ less) next after rfl).trans same
    | complete next => exact same
    | failed failure next => exact same

theorem Response.capacity_receiveDocument (link : Link κ) (buffer : Bytes) (head : Head) (s : σ) :
    (receiveDocument (m := StateM σ) link buffer head s).1.2.buffer.length = buffer.length := by
  unfold receiveDocument
  split
  · rfl
  · exact capacity_finish _ _ s

theorem Discovery.capacity_start (endpoint : Endpoint) (thingName : String) (buffer : Bytes)
    (s : σ) :
    (start (m := StateM σ) endpoint thingName buffer s).1.2.length = buffer.length := by
  obtain ⟨outcome, written, wrote⟩ : ∃ outcome written,
      Request.write buffer thingName = (outcome, written) := ⟨_, _, rfl⟩
  have size := Request.length_of_write wrote
  unfold start
  rw [wrote]
  cases outcome with
  | error failure => exact size
  | ok length =>
    dsimp only
    rw [bind_apply]
    generalize Network.connect (m := StateM σ) endpoint s = answer
    obtain ⟨fault | c, connected⟩ := answer
    · exact size
    · dsimp only
      rw [bind_apply]
      generalize Link.sendAll (m := StateM σ) _ _ connected = sending
      obtain ⟨fault | sent, after⟩ := sending
      · exact size
      · exact size

/-- A run hands the buffer back in the size that it got it. -/
theorem Discovery.capacity_run (request : DiscoveryRequest) (buffer : Bytes) (s : σ) :
    (run (m := StateM σ) request buffer s).1.2.length = buffer.length := by
  have started := capacity_start request.endpoint request.thingName buffer s
  unfold run
  rw [bind_apply]
  generalize start (m := StateM σ) request.endpoint request.thingName buffer s = begun at started ⊢
  obtain ⟨⟨failure | link, written⟩, opened⟩ := begun
  · exact started
  dsimp only at started ⊢
  rw [bind_apply]
  generalize readHead (m := StateM σ) link opened = read
  obtain ⟨⟨failure | head, kept⟩, scanned⟩ := read
  · exact started
  dsimp only
  rw [bind_apply]
  have received := (capacity_receiveDocument kept written head scanned).trans started
  generalize receiveDocument (m := StateM σ) kept written head scanned = streamed at received ⊢
  obtain ⟨⟨failure | length, reception⟩, after⟩ := streamed
  · exact received
  dsimp only at received ⊢
  rw [bind_apply, bind_apply, bind_apply]
  generalize interpret (m := StateM σ) _ request.selection _ = meant
  obtain ⟨failure | core, final⟩ := meant
  · exact received
  · exact received

end Capacity

namespace Discovery

theorem routes_run (request : DiscoveryRequest) (buffer : Bytes) (script : Script) :
    (run (m := StateM Script) request buffer script).2.routes = script.routes := by
  have ran : Matches (Routed script.routes) (Ended (Routed script.routes))
      (run (m := StateM Script) request buffer) (run (m := StateM Script) request buffer) :=
    (routed_simulation script.routes).run rfl request
  exact (ran script script ⟨rfl, rfl⟩).idle.routes

/-- What the network has seen and what the buffer held before make no difference to a run. -/
theorem run_onto (request : DiscoveryRequest) {buffer other : Bytes}
    (same : other.length = buffer.length) (earlier later : Script) :
    (run (m := StateM Script) request buffer (earlier.onto later)).1.1 =
        (run (m := StateM Script) request other later).1.1 ∧
      (run (m := StateM Script) request buffer (earlier.onto later)).2 =
        earlier.onto (run (m := StateM Script) request other later).2 := by
  have ran : Matches (Continues earlier) (Ended (Continues earlier))
      (run (m := StateM Script) request buffer) (run (m := StateM Script) request other) :=
    (continues_simulation earlier).run same request
  have ended := ran (earlier.onto later) later rfl
  exact ⟨ended.outcome, ended.idle⟩

end Discovery

namespace Session

section Series
variable {m : Type → Type} {κ : Type} [Monad m] [Network m κ] [Log m]

/-- One discovery after the other in the same session. -/
def discoverAll (s : Session) :
    List DiscoveryRequest → m (List (Except Failure CoreAddress) × Session)
  | [] => pure ([], s)
  | request :: requests => do
    let (outcome, s) ← s.discover request
    let (outcomes, s) ← s.discoverAll requests
    pure (outcome :: outcomes, s)

end Series

variable (s : Session) (request : DiscoveryRequest) (script : Script)

/-- One discovery in a session as large as this one, on a network with these routes, with neither of
them used before. -/
def alone : Except Failure CoreAddress × Script :=
  let ((outcome, _), after) :=
    (ofCapacity s.capacity).discover (m := StateM Script) request script.fresh
  (outcome, after)

theorem capacity_discover :
    (s.discover (m := StateM Script) request script).1.2.capacity = s.capacity :=
  (Discovery.capacity_run request (blank s.capacity) script).trans List.length_replicate

theorem discover_eq_alone :
    (s.discover (m := StateM Script) request script).1.1 = (s.alone request script).1 ∧
      (s.discover (m := StateM Script) request script).2 =
        script.onto (s.alone request script).2 := by
  have size : (blank (ofCapacity s.capacity).capacity).length = (blank s.capacity).length := by
    simp only [blank, ofCapacity, capacity, List.length_replicate]
  have ran := Discovery.run_onto request size script script.fresh
  rw [onto_fresh] at ran
  exact ran

theorem routes_alone : (s.alone request script).2.routes = script.routes :=
  Discovery.routes_run request _ script.fresh

/-- The next discovery meets the same routes. -/
theorem fresh_discover :
    (s.discover (m := StateM Script) request script).2.fresh = script.fresh := by
  rw [(s.discover_eq_alone request script).2]
  exact congrArg (fun routes => ({ routes } : Script)) (s.routes_alone request script)

theorem alone_of_fresh {t : Session} {later : Script} (size : t.capacity = s.capacity)
    (same : later.fresh = script.fresh) : t.alone request later = s.alone request script := by
  unfold alone
  rw [size, same]

theorem discoverAll_cons (requests : List DiscoveryRequest) :
    s.discoverAll (m := StateM Script) (request :: requests) script =
      let first := s.discover (m := StateM Script) request script
      let rest := first.1.2.discoverAll (m := StateM Script) requests first.2
      ((first.1.1 :: rest.1.1, rest.1.2), rest.2) := rfl

theorem discoverAll_alone (requests : List DiscoveryRequest) :
    (s.discoverAll (m := StateM Script) requests script).1.1 =
        requests.map (fun request => (s.alone request script).1) ∧
      (s.discoverAll (m := StateM Script) requests script).2.journal = script.journal ++
        Journal.join (requests.map fun request => (s.alone request script).2.journal) := by
  induction requests generalizing s script with
  | nil => exact ⟨rfl, script.journal.append_join_nil.symm⟩
  | cons request requests ih =>
    obtain ⟨outcome, after⟩ := s.discover_eq_alone request script
    have size := s.capacity_discover request script
    have fresh := s.fresh_discover request script
    -- What comes later is alone on the routes that the first discovery has left.
    have later (request' : DiscoveryRequest) := alone_of_fresh s request' script size fresh
    obtain ⟨outcomes, journal⟩ := ih (s.discover (m := StateM Script) request script).1.2
      (s.discover (m := StateM Script) request script).2
    simp only [later] at outcomes journal
    rw [discoverAll_cons]
    constructor
    · rw [List.map_cons, ← outcome, ← outcomes]
    · rw [List.map_cons, Journal.join_cons, ← Journal.append_assoc, journal, after]
      rfl

/-- Discoveries in one session, however each of them ends, return what each returns alone, and the
journal is that of each alone, one behind the other. On a buffer that was not cleared a run does the
same as on any other of its size. -/
theorem discoverAll_isolated (s : Session) (requests : List DiscoveryRequest) (script : Script) :
    let all := s.discoverAll (m := StateM Script) requests script
    all.1.1 = requests.map (fun request => (s.alone request script).1) ∧
      all.2.journal = script.journal ++
        Journal.join (requests.map fun request => (s.alone request script).2.journal) ∧
      ∀ (request : DiscoveryRequest) (buffer other : Bytes), other.length = buffer.length →
        (Discovery.run (m := StateM Script) request other script).1.1 =
            (Discovery.run (m := StateM Script) request buffer script).1.1 ∧
          (Discovery.run (m := StateM Script) request other script).2 =
            (Discovery.run (m := StateM Script) request buffer script).2 := by
  intro all
  obtain ⟨outcomes, journal⟩ := s.discoverAll_alone script requests
  refine ⟨outcomes, journal, fun request buffer other same => ?_⟩
  have stale := Discovery.run_onto request same script script.fresh
  have own := Discovery.run_onto request (rfl : other.length = other.length) script script.fresh
  rw [onto_fresh] at stale own
  exact ⟨own.1.trans stale.1.symm, own.2.trans stale.2.symm⟩

/-- The body stops one byte short, and the buffer holds the missing byte in that place. -/
theorem discoverAll_isolated_from_leftover :
    let script : Script := { routes := [⟨"gg", 8443,
      .respond [.ofString "content-length: 2\r\n\r\n", [0x7B]] false⟩] }
    let request : DiscoveryRequest := { host := "gg", port := 8443, thingName := "t" }
    let leftover : Bytes := List.replicate 64 0x7D
    (Discovery.run (m := StateM Script) request leftover script).1.1 =
        (Discovery.run (m := StateM Script) request (blank 64) script).1.1 ∧
      (Discovery.run (m := StateM Script) request leftover script).2 =
        (Discovery.run (m := StateM Script) request (blank 64) script).2 := by
  intro script request leftover
  have isolated := discoverAll_isolated (.ofCapacity 64) [request, request] script
  exact isolated.2.2 request (blank 64) leftover rfl

end Session
end CoreLocator
