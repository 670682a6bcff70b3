import CoreLocator.Proofs.Discovery.Simulation
import CoreLocator.Proofs.Network.Scripted
import CoreLocator.Proofs.Network.Watched

/-! A discovery takes down what it has brought up, however it ends, and never holds two connections
at a time. -/
namespace CoreLocator.Discovery
open Network Network.Script

/-- Connections that were up before do not count. -/
def isUp (start now : Script) (i : Nat) : Prop :=
  start.streams.length ≤ i ∧ (now.streams[i]?).map Stream.isOpen = some true

variable {start now after : Script} {c : Handle} {accepted : Nat}

/-- All of so many connections since `start` have been taken down, each of them once. -/
structure Settled (start now : Script) (accepted : Nat) : Prop where
  down : ∀ i, ¬ isUp start now i
  count : now.streams.length = start.streams.length + accepted
  disconnects : now.journal.disconnects = start.journal.disconnects + accepted

/-- All but `c`, which is up. -/
structure Holding (start : Script) (c : Handle) (now : Script) (accepted : Nat) : Prop where
  up : isUp start now c.index
  only : ∀ i, isUp start now i → i = c.index
  count : now.streams.length = start.streams.length + accepted
  disconnects : now.journal.disconnects + 1 = start.journal.disconnects + accepted

theorem settled_self (start : Script) : Settled start start 0 := by
  refine ⟨fun i up => ?_, rfl, rfl⟩
  have unmade : start.streams[i]? = none := List.getElem?_eq_none up.1
  simp [isUp, unmade] at up

theorem Settled.opened (settled : Settled start now accepted) (e : Endpoint)
    (chunks : List Bytes) (failAtEnd : Bool) :
    Holding start ⟨now.streams.length⟩ (now.opened e chunks failAtEnd) (accepted + 1) where
  up := ⟨by rw [settled.count]; exact Nat.le_add_right _ _,
    (unread_of_respond now e chunks failAtEnd).up⟩
  only i up := by
    by_cases old : i < now.streams.length
    · have same : (now.opened e chunks failAtEnd).streams[i]? = now.streams[i]? :=
        List.getElem?_append_left old
      exact absurd ⟨up.1, same ▸ up.2⟩ (settled.down i)
    · obtain ⟨_, found, -⟩ := Option.map_eq_some_iff.mp up.2
      obtain ⟨bound, -⟩ := List.getElem?_eq_some_iff.mp found
      have size : (now.opened e chunks failAtEnd).streams.length = now.streams.length + 1 :=
        List.length_append
      rw [size] at bound
      exact Nat.le_antisymm (Nat.le_of_lt_succ bound) (Nat.le_of_not_lt old)
  count := by
    rw [← Nat.add_assoc, ← settled.count]
    exact List.length_append
  disconnects := congrArg (· + 1) settled.disconnects

theorem Holding.reads (holding : Holding start c now accepted) (reads : Reads c now after) :
    Holding start c after accepted where
  up := ⟨holding.up.1, reads.up.trans holding.up.2⟩
  only i up := by
    by_cases other : i = c.index
    · exact other
    · exact holding.only i ⟨up.1, reads.others i other ▸ up.2⟩
  count := reads.count.trans holding.count
  disconnects := by rw [reads.journal, holding.disconnects]

theorem Holding.send (holding : Holding start c now accepted) (data : Bytes) :
    Holding start c (now.send c data).2 accepted := by
  obtain ⟨stream, found, opened⟩ := Option.map_eq_some_iff.mp holding.up.2
  simp only [Script.send, found, opened, if_true]
  exact ⟨holding.up, holding.only, holding.count, holding.disconnects⟩

theorem Holding.disconnect (holding : Holding start c now accepted) :
    Settled start (now.disconnect c) accepted := by
  have closes : Closes c now (now.disconnect c) := ⟨now, .refl c now, rfl⟩
  have taken := closes.takenDown holding.up.2
  refine ⟨fun i up => ?_, ?_, ?_⟩
  · by_cases own : i = c.index
    · rw [own] at up
      simp [isUp, taken.down] at up
    · exact own (holding.only i ⟨up.1, taken.others i own ▸ up.2⟩)
  · rw [taken.count, holding.count]
  · rw [taken.journal]
    exact holding.disconnects

/-- A call is made with one connection up at most, and a connect with none. -/
structure InTurn (start : Script) (call : Call) (now : Script) : Prop where
  single : ∀ i j, isUp start now i → isUp start now j → i = j
  free : ∀ answered, call = .connect answered → ∀ i, ¬ isUp start now i

theorem Settled.inTurn (settled : Settled start now accepted) (call : Call) :
    InTurn start call now :=
  ⟨fun i _ up => absurd up (settled.down i), fun _ _ => settled.down⟩

theorem Holding.inTurn (holding : Holding start c now accepted) {call : Call}
    (other : ∀ answered, call ≠ .connect answered) : InTurn start call now :=
  ⟨fun i j up up' => (holding.only i up).trans (holding.only j up').symm,
    fun answered same => absurd same (other answered)⟩

def Orderly (start : Script) (calls : List (Call × Script)) : Prop :=
  ∀ made ∈ calls, InTurn start made.1 made.2

theorem Orderly.append {calls : List (Call × Script)} {call : Call}
    (orderly : Orderly start calls) (next : InTurn start call now) :
    Orderly start (calls ++ [(call, now)]) := by
  intro made member
  rcases List.mem_append.mp member with old | last
  · exact orderly made old
  · rw [List.mem_singleton.mp last]
    exact next

/-- The watched network has done what the other one has, and holds no connection. -/
structure Idle (start : Script) (watched : Watched Script) (now : Script) : Prop where
  state : watched.state = now
  settled : Settled start now (Network.accepted watched.calls)
  orderly : Orderly start watched.calls

structure Busy (start : Script) (c c' : Handle) (watched : Watched Script) (now : Script) :
    Prop where
  handle : c = c'
  state : watched.state = now
  holding : Holding start c' now (Network.accepted watched.calls)
  orderly : Orderly start watched.calls

theorem watched_connect (start : Script) (endpoint : Endpoint) :
    Matches (Idle start) (Dialled (Idle start) (Busy start))
      (Network.connect (m := StateM (Watched Script)) endpoint)
      (Network.connect (m := StateM Script) endpoint) := by
  rintro ⟨state, calls⟩ now ⟨rfl, settled, orderly⟩
  change Dialled (Idle start) (Busy start) (state.connect endpoint).1 (state.connect endpoint).1
    ⟨(state.connect endpoint).2, calls ++ [(.connect (state.connect endpoint).1.isOk, state)]⟩
    (state.connect endpoint).2
  cases reached : state.accepts endpoint.host endpoint.port with
  | true =>
    obtain ⟨chunks, failAtEnd, route⟩ := respond_of_accepts reached
    rw [connect_of_respond endpoint route]
    refine .up ⟨rfl, rfl, ?_, orderly.append (settled.inTurn _)⟩
    rw [accepted_append]
    exact settled.opened endpoint chunks failAtEnd
  | false =>
    rw [connect_of_refused endpoint reached]
    refine .down ⟨rfl, ?_, orderly.append (settled.inTurn _)⟩
    rw [accepted_append]
    exact ⟨settled.down, settled.count, settled.disconnects⟩

/-- A call other than a connect concerns the connection that is up. -/
theorem watched_call {α : Type} {start : Script} (call : Call)
    (other : ∀ answered, call ≠ .connect answered) (x : StateM Script α) {c c' : Handle}
    {P : Watched Script → Script → Prop}
    (kept : ∀ state calls, Holding start c' state (Network.accepted calls) → Orderly start calls →
      P ⟨(x state).2, calls⟩ (x state).2) :
    Matches (Busy start c c') (Same P) (watch (fun _ => call) x) x := by
  rintro ⟨state, calls⟩ now ⟨rfl, rfl, holding, orderly⟩
  have same : Network.accepted (calls ++ [(call, state)]) = Network.accepted calls := by
    rw [accepted_append, if_neg (other true)]
    rfl
  refine ⟨rfl, kept state _ ?_ (orderly.append (holding.inTurn other))⟩
  rw [same]
  exact holding

theorem watched_simulation (start : Script) : Simulation (Idle start) (Busy start) where
  connect := watched_connect start
  send c c' data := by
    intro watched now busy
    obtain rfl := busy.handle
    refine watched_call .send nofun (fun now => now.send c data)
      (fun state calls holding orderly => ?_) watched now busy
    exact ⟨rfl, rfl, holding.send data, orderly⟩
  receive c c' room := by
    intro watched now busy
    obtain rfl := busy.handle
    refine watched_call .receive nofun (fun now => now.receive c room)
      (fun state calls holding orderly => ?_) watched now busy
    exact ⟨rfl, rfl, holding.reads (reads_receive state c room), orderly⟩
  disconnect c c' := by
    intro watched now busy
    obtain rfl := busy.handle
    refine watched_call .disconnect nofun (fun now => ((), now.disconnect c))
      (fun state calls holding orderly => ?_) watched now busy
    exact ⟨rfl, holding.disconnect, orderly⟩
  idle_record r := by
    rintro ⟨state, calls⟩ now ⟨rfl, settled, orderly⟩
    exact ⟨rfl, rfl, ⟨settled.down, settled.count, settled.disconnects⟩, orderly⟩
  busy_record c c' r := by
    rintro ⟨state, calls⟩ now ⟨same, rfl, holding, orderly⟩
    exact ⟨rfl, same, rfl, holding.reads (reads_note c' state r), orderly⟩

/-- However a run ends, each connection that it made has been taken down once, and no connect was
made before that. Watching the calls changes nothing. -/
theorem run_teardown (request : DiscoveryRequest) (buffer : Bytes) (script : Script) :
    let ended := run (m := StateM Script) request buffer script
    let watched := run (m := StateM (Watched Script)) request buffer { state := script }
    let connects := Network.accepted watched.2.calls
    watched.1.1 = ended.1.1 ∧ watched.2.state = ended.2 ∧
      ended.2.streams.length = script.streams.length + connects ∧
      ended.2.journal.disconnects = script.journal.disconnects + connects ∧
      (∀ i, ¬ isUp script ended.2 i) ∧
      ∀ made ∈ watched.2.calls, InTurn script made.1 made.2 := by
  intro ended watched connects
  have before : Idle script { state := script } script :=
    ⟨rfl, settled_self script, fun _ member => absurd member List.not_mem_nil⟩
  have ran : Matches (Idle script) (Ended (Idle script))
      (run (m := StateM (Watched Script)) request buffer)
      (run (m := StateM Script) request buffer) := (watched_simulation script).run rfl request
  obtain ⟨outcome, -, state, settled, orderly⟩ := ran _ _ before
  exact ⟨outcome, state, settled.count, settled.disconnects, settled.down, orderly⟩

end CoreLocator.Discovery
