import CoreLocator.Proofs.Network.Scripted
import CoreLocator.Proofs.Network.Simulation

/-! A scripted network that has a past. What was done before stands in front of the journal, of the
streams and of the log, and no call looks back at it: the network answers as one with the same
routes on which nothing was done. -/
namespace CoreLocator.Network

instance : Append Journal where
  append earlier later := {
    connects := earlier.connects ++ later.connects
    trust := earlier.trust ++ later.trust
    sent := earlier.sent ++ later.sent
    disconnects := earlier.disconnects + later.disconnects }

/-- Journals one behind the other. -/
def Journal.join (journals : List Journal) : Journal where
  connects := journals.flatMap (·.connects)
  trust := journals.flatMap (·.trust)
  sent := journals.flatMap (·.sent)
  disconnects := journals.foldr (fun journal count => journal.disconnects + count) 0

theorem Journal.append_eq (earlier later : Journal) : earlier ++ later =
    ⟨earlier.connects ++ later.connects, earlier.trust ++ later.trust, earlier.sent ++ later.sent,
      earlier.disconnects + later.disconnects⟩ := rfl

theorem Journal.append_assoc (a b c : Journal) : a ++ b ++ c = a ++ (b ++ c) := by
  simp only [append_eq, List.append_assoc, Nat.add_assoc]

theorem Journal.append_join_nil (journal : Journal) : journal ++ join [] = journal := by
  simp only [append_eq, join, List.flatMap_nil, List.append_nil, List.foldr_nil, Nat.add_zero]

theorem Journal.join_cons (journal : Journal) (journals : List Journal) :
    join (journal :: journals) = journal ++ join journals := by
  simp only [append_eq, join, List.flatMap_cons, List.foldr_cons]

theorem Journal.join_concat (journals : List Journal) (journal : Journal) :
    join (journals ++ [journal]) = join journals ++ journal := by
  induction journals with
  | nil => simp only [append_eq, join, List.nil_append, List.flatMap_singleton, List.flatMap_nil,
      List.foldr_cons, List.foldr_nil, Nat.add_zero, Nat.zero_add]
  | cons first journals ih => rw [List.cons_append, join_cons, join_cons, ih, append_assoc]

/-- The connection when so many others were made before. -/
def Handle.behind (count : Nat) (c : Handle) : Handle := ⟨count + c.index⟩

namespace Script

/-- The same routes, and nothing done yet. -/
def fresh (script : Script) : Script := { routes := script.routes }

/-- `later` with all that `earlier` has seen before it. -/
def onto (earlier later : Script) : Script where
  routes := later.routes
  journal := earlier.journal ++ later.journal
  streams := earlier.streams ++ later.streams
  log := earlier.log ++ later.log

theorem onto_fresh (script : Script) : script.onto script.fresh = script := by
  simp only [onto, fresh, Journal.append_eq, List.append_nil, Nat.add_zero]

section Calls
variable (earlier later : Script) (c : Handle)

theorem stream_onto : (earlier.onto later).streams[(c.behind earlier.streams.length).index]? =
    later.streams[c.index]? := by
  rw [onto, Handle.behind, List.getElem?_append_right (Nat.le_add_right _ _),
    Nat.add_sub_cancel_left]

theorem set_stream_onto (stream : Stream) :
    (earlier.onto later).streams.set (c.behind earlier.streams.length).index stream =
      earlier.streams ++ later.streams.set c.index stream := by
  rw [onto, Handle.behind, List.set_append_right _ _ (Nat.le_add_right _ _),
    Nat.add_sub_cancel_left]

theorem connect_onto (endpoint : Endpoint) : (earlier.onto later).connect endpoint =
    ((later.connect endpoint).1.map (·.behind earlier.streams.length),
      earlier.onto (later.connect endpoint).2) := by
  have route : (earlier.onto later).routeTo? endpoint.host endpoint.port =
      later.routeTo? endpoint.host endpoint.port := rfl
  unfold connect
  rw [route]
  cases later.routeTo? endpoint.host endpoint.port with
  | none => simp only [onto, Journal.append_eq, Except.map, List.append_assoc]
  | some route =>
    cases route with
    | refuse => simp only [onto, Journal.append_eq, Except.map, List.append_assoc]
    | respond chunks failAtEnd =>
      simp only [onto, Journal.append_eq, Except.map, List.append_assoc, Handle.behind,
        List.length_append]

theorem send_onto (data : Bytes) :
    (earlier.onto later).send (c.behind earlier.streams.length) data =
      ((later.send c data).1, earlier.onto (later.send c data).2) := by
  unfold send
  rw [stream_onto]
  cases later.streams[c.index]? with
  | none => rfl
  | some stream =>
    dsimp only
    split
    · simp only [onto, Journal.append_eq, List.append_assoc]
    · rfl

theorem receive_onto (room : Nat) :
    (earlier.onto later).receive (c.behind earlier.streams.length) room =
      ((later.receive c room).1, earlier.onto (later.receive c room).2) := by
  unfold receive
  rw [stream_onto]
  cases later.streams[c.index]? with
  | none => rfl
  | some stream =>
    dsimp only
    rw [set_stream_onto]
    rfl

theorem disconnect_onto : (earlier.onto later).disconnect (c.behind earlier.streams.length) =
    earlier.onto (later.disconnect c) := by
  unfold disconnect
  rw [stream_onto]
  cases later.streams[c.index]? with
  | none => rfl
  | some stream =>
    dsimp only
    split
    · rw [set_stream_onto]
      simp only [onto, Journal.append_eq, Nat.add_assoc]
    · rfl

end Calls

/-- One network has seen `earlier` before all that the other one has seen. -/
def Continues (earlier now later : Script) : Prop := now = earlier.onto later

structure ContinuesWith (earlier : Script) (c c' : Handle) (now later : Script) : Prop where
  state : now = earlier.onto later
  handle : c = c'.behind earlier.streams.length

theorem continues_simulation (earlier : Script) :
    Simulation (Continues earlier) (ContinuesWith earlier) where
  connect endpoint := by
    rintro _ later rfl
    change Dialled _ _ ((earlier.onto later).connect endpoint).1 (later.connect endpoint).1
      ((earlier.onto later).connect endpoint).2 (later.connect endpoint).2
    rw [connect_onto]
    cases (later.connect endpoint).1 with
    | error fault => exact .down rfl
    | ok c => exact .up ⟨rfl, rfl⟩
  send c c' data := by
    rintro _ later ⟨rfl, rfl⟩
    change Same _ ((earlier.onto later).send _ data).1 (later.send c' data).1
      ((earlier.onto later).send _ data).2 (later.send c' data).2
    rw [send_onto]
    exact ⟨rfl, rfl, rfl⟩
  receive c c' room := by
    rintro _ later ⟨rfl, rfl⟩
    change Same _ ((earlier.onto later).receive _ room).1 (later.receive c' room).1
      ((earlier.onto later).receive _ room).2 (later.receive c' room).2
    rw [receive_onto]
    exact ⟨rfl, rfl, rfl⟩
  disconnect c c' := by
    rintro _ later ⟨rfl, rfl⟩
    exact ⟨rfl, disconnect_onto earlier later c'⟩
  idle_record r := by
    rintro _ later rfl
    exact ⟨rfl, by simp only [Continues, onto, Log.record, List.append_assoc]⟩
  busy_record c c' r := by
    rintro _ later ⟨rfl, rfl⟩
    exact ⟨rfl, by simp only [onto, Log.record, List.append_assoc], rfl⟩

section Routes
variable (script : Script) (c : Handle)

theorem routes_connect (endpoint : Endpoint) :
    (script.connect endpoint).2.routes = script.routes := by
  unfold connect
  split <;> rfl

theorem routes_send (data : Bytes) : (script.send c data).2.routes = script.routes := by
  unfold send
  split
  · rfl
  · split <;> rfl

theorem routes_disconnect : (script.disconnect c).routes = script.routes := by
  unfold disconnect
  split
  · rfl
  · split <;> rfl

end Routes

/-- Both are the same network, and it has these routes. -/
structure Routed (routes : List RouteEntry) (now now' : Script) : Prop where
  same : now = now'
  routes : now'.routes = routes

structure RoutedWith (routes : List RouteEntry) (c c' : Handle) (now now' : Script) : Prop where
  handle : c = c'
  routed : Routed routes now now'

theorem routed_simulation (routes : List RouteEntry) :
    Simulation (Routed routes) (RoutedWith routes) where
  connect endpoint := by
    rintro now _ ⟨rfl, kept⟩
    have kept := (routes_connect now endpoint).trans kept
    change Dialled _ _ (now.connect endpoint).1 (now.connect endpoint).1
      (now.connect endpoint).2 (now.connect endpoint).2
    cases (now.connect endpoint).1 with
    | error fault => exact .down ⟨rfl, kept⟩
    | ok c => exact .up ⟨rfl, rfl, kept⟩
  send c c' data := by
    rintro now _ ⟨rfl, rfl, kept⟩
    exact ⟨rfl, rfl, rfl, (routes_send now c data).trans kept⟩
  receive c c' room := by
    rintro now _ ⟨rfl, rfl, kept⟩
    exact ⟨rfl, rfl, rfl, (reads_receive now c room).routes.trans kept⟩
  disconnect c c' := by
    rintro now _ ⟨rfl, rfl, kept⟩
    exact ⟨rfl, rfl, (routes_disconnect now c).trans kept⟩
  idle_record r := by
    rintro now _ ⟨rfl, kept⟩
    exact ⟨rfl, rfl, kept⟩
  busy_record c c' r := by
    rintro now _ ⟨rfl, rfl, kept⟩
    exact ⟨rfl, rfl, rfl, kept⟩

end Script
end CoreLocator.Network
