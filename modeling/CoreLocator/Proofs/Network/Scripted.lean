import CoreLocator.Network.Link
import CoreLocator.Network.Scripted

/-! What the calls of a scripted network change. A read concerns the stream that it reads from and
nothing else; a connection that is up stays up until it is disconnected, and that is counted. -/
namespace CoreLocator.Network

variable {σ α β : Type}

theorem bind_apply (x : StateM σ α) (f : α → StateM σ β) (s : σ) :
    (x >>= f) s = f (x s).1 (x s).2 := rfl

theorem bind_of_eq {x : StateM σ α} {s t : σ} {a : α} (h : x s = (a, t)) (f : α → StateM σ β) :
    (x >>= f) s = f a t := by rw [bind_apply, h]

/-- The bytes that a route delivers, and whether a reset follows them. -/
def Route.stream? : Route → Option (Bytes × Bool)
  | .refuse => none
  | .respond chunks failAtEnd => some (chunks.flatten, failAtEnd)

namespace Script

def note (script : Script) (r : Log.Record) : Script := { script with log := script.log ++ [r] }

/-- `c` is up and has these chunks left to deliver, none of them without bytes. -/
structure Queued (script : Script) (c : Handle) (chunks : List Bytes) (failAtEnd : Bool) :
    Prop where
  stream : script.streams[c.index]? = some { chunks, failAtEnd }
  solid : [] ∉ chunks

/-- `c` is up and has these bytes left to deliver, in whatever chunks. -/
def Unread (script : Script) (c : Handle) (bytes : Bytes) (failAtEnd : Bool) : Prop :=
  ∃ chunks, script.Queued c chunks failAtEnd ∧ chunks.flatten = bytes

/-- Between the two states nothing but reads from `c` and log records has happened. -/
structure Reads (c : Handle) (before after : Script) : Prop where
  routes : after.routes = before.routes
  journal : after.journal = before.journal
  count : after.streams.length = before.streams.length
  others : ∀ i, i ≠ c.index → after.streams[i]? = before.streams[i]?
  up : (after.streams[c.index]?).map Stream.isOpen = (before.streams[c.index]?).map Stream.isOpen

variable {script before after : Script} {c : Handle}
  {chunk : Bytes} {chunks later : List Bytes} {failAtEnd : Bool} {room : Nat}

/-- A connect, put at the end of the journal. -/
def asked (script : Script) (e : Endpoint) : Script :=
  { script with journal := { script.journal with
      connects := script.journal.connects ++ [(e.host, e.port)]
      trust := script.journal.trust ++ [e.trust] } }

/-- A connect that has come about. -/
def opened (script : Script) (e : Endpoint) (chunks : List Bytes) (failAtEnd : Bool) : Script :=
  { script.asked e with streams := script.streams ++ [.ofRoute chunks failAtEnd] }

/-- Whether a connect to this host and port comes about. -/
def accepts (script : Script) (host : String) (port : UInt16) : Bool :=
  match script.routeTo? host port with
  | some (.respond _ _) => true
  | _ => false

theorem accepts_of_routes (same : after.routes = before.routes) (host : String) (port : UInt16) :
    after.accepts host port = before.accepts host port := by
  simp only [accepts, routeTo?, same]

theorem connect_of_respond (endpoint : Endpoint)
    (route : script.routeTo? endpoint.host endpoint.port = some (.respond chunks failAtEnd)) :
    script.connect endpoint =
      (.ok ⟨script.streams.length⟩, script.opened endpoint chunks failAtEnd) := by
  simp only [connect, route, opened, asked]

theorem connect_of_refused (endpoint : Endpoint)
    (refused : script.accepts endpoint.host endpoint.port = false) :
    script.connect endpoint =
      (.error (.noRoute endpoint.host endpoint.port), script.asked endpoint) := by
  unfold accepts at refused
  unfold connect
  split at refused
  · contradiction
  · next other =>
    split
    · next chunks failAtEnd route => exact absurd route (other chunks failAtEnd)
    · rfl
    · rfl

theorem respond_of_accepts {host : String} {port : UInt16}
    (accepted : script.accepts host port = true) :
    ∃ chunks failAtEnd, script.routeTo? host port = some (.respond chunks failAtEnd) := by
  unfold accepts at accepted
  split at accepted
  · next chunks failAtEnd route => exact ⟨chunks, failAtEnd, route⟩
  · contradiction

/-- What a connect to this host and port gets to read, if it comes about. -/
def peer? (script : Script) (host : String) (port : UInt16) :
    Option (Bytes × Bool) :=
  (script.routeTo? host port).bind Route.stream?

theorem accepts_eq_isSome_peer? (script : Script) (host : String) (port : UInt16) :
    script.accepts host port = (script.peer? host port).isSome := by
  unfold accepts peer?
  cases script.routeTo? host port with
  | none => rfl
  | some route => cases route <;> rfl

theorem peer?_of_respond {host : String} {port : UInt16} {chunks : List Bytes} {failAtEnd : Bool}
    (route : script.routeTo? host port = some (.respond chunks failAtEnd)) :
    script.peer? host port = some (chunks.flatten, failAtEnd) := by
  rw [peer?, route]
  rfl

theorem respond_of_peer? {host : String} {port : UInt16} {bytes : Bytes} {failAtEnd : Bool}
    (peer : script.peer? host port = some (bytes, failAtEnd)) : ∃ chunks,
    script.routeTo? host port = some (.respond chunks failAtEnd) ∧ chunks.flatten = bytes := by
  obtain ⟨route, found, stream⟩ := Option.bind_eq_some_iff.mp peer
  cases route with
  | refuse => simp [Route.stream?] at stream
  | respond chunks failAtEnd' =>
    obtain ⟨rfl, rfl⟩ := Prod.mk.inj (Option.some.inj stream)
    exact ⟨chunks, found, rfl⟩

/-- The peer's bytes wait on a connection that was just made, the chunks without any left out. -/
theorem unread_of_respond (script : Script) (endpoint : Endpoint) (chunks : List Bytes)
    (failAtEnd : Bool) : (script.opened endpoint chunks failAtEnd).Unread
      ⟨script.streams.length⟩ chunks.flatten failAtEnd := by
  refine ⟨chunks.filter (· ≠ []), ⟨?_, by simp⟩, ?_⟩
  · exact List.getElem?_concat_length
  · induction chunks with
    | nil => rfl
    | cons chunk chunks ih =>
      cases chunk with
      | nil => simpa using ih
      | cons b chunk => simpa using ih

theorem Reads.refl (c : Handle) (script : Script) : Reads c script script :=
  ⟨rfl, rfl, rfl, fun _ _ => rfl, rfl⟩

theorem Reads.trans {middle : Script} (first : Reads c before middle)
    (second : Reads c middle after) : Reads c before after where
  routes := second.routes.trans first.routes
  journal := second.journal.trans first.journal
  count := second.count.trans first.count
  others i h := (second.others i h).trans (first.others i h)
  up := second.up.trans first.up

theorem reads_note (c : Handle) (script : Script) (r : Log.Record) :
    Reads c script (script.note r) := ⟨rfl, rfl, rfl, fun _ _ => rfl, rfl⟩

theorem Queued.note (queued : script.Queued c chunks failAtEnd) (r : Log.Record) :
    (script.note r).Queued c chunks failAtEnd := ⟨queued.stream, queued.solid⟩

theorem reads_set {stream next : Stream} (found : script.streams[c.index]? = some stream)
    (same : next.isOpen = stream.isOpen) :
    Reads c script { script with streams := script.streams.set c.index next } where
  routes := rfl
  journal := rfl
  count := List.length_set
  others i h := List.getElem?_set_ne (Ne.symm h)
  up := by
    obtain ⟨bound, -⟩ := List.getElem?_eq_some_iff.mp found
    simp only [List.getElem?_set_self bound, found, Option.map_some, same]

/-- Nothing but reads from `c` and log records, and then a disconnect of `c`. -/
def Closes (c : Handle) (before after : Script) : Prop :=
  ∃ between, Reads c before between ∧ after = between.disconnect c

theorem Reads.closes {middle : Script} (reads : Reads c before middle)
    (closes : Closes c middle after) : Closes c before after := by
  obtain ⟨between, later, rfl⟩ := closes
  exact ⟨between, reads.trans later, rfl⟩

theorem disconnect_note (script : Script) (c : Handle) (r : Log.Record) :
    (script.disconnect c).note r = (script.note r).disconnect c := by
  unfold disconnect note
  cases script.streams[c.index]? with
  | none => rfl
  | some stream => dsimp only; split <;> rfl

theorem disconnect_of_up (up : (before.streams[c.index]?).map Stream.isOpen = some true) :
    ∃ stream : Stream, before.disconnect c = { before with
      streams := before.streams.set c.index { stream with isOpen := false }
      journal := { before.journal with disconnects := before.journal.disconnects + 1 } } := by
  obtain ⟨stream, found, opened⟩ := Option.map_eq_some_iff.mp up
  refine ⟨stream, ?_⟩
  simp only [disconnect, found, opened, if_true]

/-- `c` has been taken down, and that is counted. -/
structure TakenDown (c : Handle) (before after : Script) : Prop where
  routes : after.routes = before.routes
  journal : after.journal =
    { before.journal with disconnects := before.journal.disconnects + 1 }
  count : after.streams.length = before.streams.length
  others : ∀ i, i ≠ c.index → after.streams[i]? = before.streams[i]?
  down : (after.streams[c.index]?).map Stream.isOpen = some false

theorem Closes.takenDown (closes : Closes c before after)
    (up : (before.streams[c.index]?).map Stream.isOpen = some true) :
    TakenDown c before after := by
  obtain ⟨between, reads, rfl⟩ := closes
  have still := reads.up.trans up
  obtain ⟨stream, down⟩ := disconnect_of_up still
  obtain ⟨_, found, -⟩ := Option.map_eq_some_iff.mp still
  obtain ⟨bound, -⟩ := List.getElem?_eq_some_iff.mp found
  rw [down]
  refine ⟨reads.routes, ?_, ?_, fun i other => ?_, ?_⟩
  · rw [reads.journal]
  · rw [List.length_set, reads.count]
  · rw [List.getElem?_set_ne (Ne.symm other), reads.others i other]
  · rw [List.getElem?_set_self bound, Option.map_some]

theorem Queued.up (queued : script.Queued c chunks failAtEnd) :
    (script.streams[c.index]?).map Stream.isOpen = some true := by
  rw [queued.stream, Option.map_some]

theorem Closes.note (closes : Closes c before after) (r : Log.Record) :
    Closes c before (after.note r) := by
  obtain ⟨between, reads, rfl⟩ := closes
  exact ⟨between.note r, reads.trans (reads_note c between r), disconnect_note between c r⟩

def posted (script : Script) (data : Bytes) : Script :=
  { script with journal := { script.journal with sent := script.journal.sent ++ data } }

theorem sendOver_of_up (up : (script.streams[c.index]?).map Stream.isOpen = some true)
    {data : Bytes} (nonempty : data ≠ []) :
    Link.sendOver (m := StateM Script) c data script = (.ok (), script.posted data) := by
  obtain ⟨b, data, rfl⟩ := List.exists_cons_of_ne_nil nonempty
  obtain ⟨stream, found, opened⟩ := Option.map_eq_some_iff.mp up
  have answer : script.send c (b :: data) =
      (.ok ⟨data.length + 1, Nat.le_refl _⟩, script.posted (b :: data)) := by
    simp only [send, found, opened, if_true]
    rfl
  rw [Link.sendOver, bind_of_eq answer]
  dsimp only
  rw [List.drop_length, Link.sendOver]
  rfl

theorem receive_of_stream {stream : Stream} (found : script.streams[c.index]? = some stream)
    (room : Nat) : script.receive c room = ((stream.receive room).1,
      { script with streams := script.streams.set c.index (stream.receive room).2 }) := by
  simp only [receive, found]

theorem reads_receive (script : Script) (c : Handle) (room : Nat) :
    Reads c script (script.receive c room).2 := by
  cases found : script.streams[c.index]? with
  | none => simpa only [receive, found] using Reads.refl c script
  | some stream =>
    rw [receive_of_stream found]
    refine reads_set found ?_
    unfold Stream.receive
    split
    · split <;> rfl
    · rfl

/-- A read that offers enough room takes the whole chunk. -/
theorem Queued.receive_whole (queued : script.Queued c (chunk :: later) failAtEnd)
    (fits : chunk.length ≤ room) :
    ∃ after, script.receive c room = (.ok ⟨chunk, fits⟩, after) ∧
      after.Queued c later failAtEnd ∧ Reads c script after := by
  have answer : script.receive c room = (.ok ⟨chunk, fits⟩,
      { script with streams := script.streams.set c.index { chunks := later, failAtEnd } }) := by
    rw [receive_of_stream queued.stream]
    simp [Stream.receive, List.drop_of_length_le fits, List.take_of_length_le fits]
  refine ⟨_, answer, ⟨?_, ?_⟩, reads_set queued.stream rfl⟩
  · obtain ⟨bound, -⟩ := List.getElem?_eq_some_iff.mp queued.stream
    exact List.getElem?_set_self bound
  · exact fun member => queued.solid (List.mem_cons_of_mem chunk member)

theorem Queued.receive_part (queued : script.Queued c (chunk :: later) failAtEnd)
    (short : room < chunk.length) :
    ∃ after, script.receive c room = (.ok ⟨chunk.take room, List.length_take_le _ _⟩, after) ∧
      after.Queued c (chunk.drop room :: later) failAtEnd ∧ Reads c script after := by
  have rest : chunk.drop room ≠ [] := by simpa using short
  have answer : script.receive c room = (.ok ⟨chunk.take room, List.length_take_le _ _⟩,
      { script with
        streams := script.streams.set c.index
          { chunks := chunk.drop room :: later, failAtEnd } }) := by
    rw [receive_of_stream queued.stream]
    simp only [Stream.receive, if_true, if_neg rest]
  refine ⟨_, answer, ⟨?_, ?_⟩, reads_set queued.stream rfl⟩
  · obtain ⟨bound, -⟩ := List.getElem?_eq_some_iff.mp queued.stream
    exact List.getElem?_set_self bound
  · intro member
    rcases List.mem_cons.mp member with empty | member
    · exact rest empty.symm
    · exact queued.solid (List.mem_cons_of_mem chunk member)

/-- Everything has been delivered. -/
theorem Queued.receive_end (queued : script.Queued c [] failAtEnd) (room : Nat) :
    ∃ after, script.receive c room =
        (if failAtEnd then .error .reset else .ok ⟨[], Nat.zero_le room⟩, after) ∧
      after.Queued c [] failAtEnd ∧ Reads c script after := by
  obtain ⟨bound, -⟩ := List.getElem?_eq_some_iff.mp queued.stream
  refine ⟨_, receive_of_stream queued.stream room, ⟨?_, queued.solid⟩,
    reads_set queued.stream rfl⟩
  exact List.getElem?_set_self bound

/-- The bytes that a connection has left to deliver, be it up or down. -/
def left (script : Script) (c : Handle) : Bytes :=
  (script.streams[c.index]?).elim [] fun stream => stream.chunks.flatten

theorem left_disconnect (script : Script) (c : Handle) :
    (script.disconnect c).left c = script.left c := by
  unfold disconnect left
  cases found : script.streams[c.index]? with
  | none => rw [found]
  | some stream =>
    obtain ⟨bound, -⟩ := List.getElem?_eq_some_iff.mp found
    dsimp only
    split
    · rw [List.getElem?_set_self bound]
      rfl
    · rw [found]

theorem Unread.left {bytes : Bytes} (unread : script.Unread c bytes failAtEnd) :
    script.left c = bytes := by
  obtain ⟨chunks, queued, flat⟩ := unread
  rw [Script.left, queued.stream]
  exact flat

/-- Without bytes there are no chunks either. -/
theorem Unread.queued_nil (unread : script.Unread c [] failAtEnd) :
    script.Queued c [] failAtEnd := by
  obtain ⟨chunks, queued, flat⟩ := unread
  cases chunks with
  | nil => exact queued
  | cons chunk later =>
    obtain ⟨empty, -⟩ := List.append_eq_nil_iff.mp flat
    exact absurd (empty ▸ List.mem_cons_self) queued.solid

theorem Unread.up {bytes : Bytes} (unread : script.Unread c bytes failAtEnd) :
    (script.streams[c.index]?).map Stream.isOpen = some true := by
  obtain ⟨_, queued, -⟩ := unread
  exact queued.up

theorem Unread.of_streams {bytes : Bytes} (unread : before.Unread c bytes failAtEnd)
    (same : after.streams = before.streams) : after.Unread c bytes failAtEnd := by
  obtain ⟨chunks, queued, flat⟩ := unread
  exact ⟨chunks, ⟨same ▸ queued.stream, queued.solid⟩, flat⟩

/-- One byte at a time the chunks make no difference. -/
theorem Unread.receive_one {b : UInt8} {rest : Bytes}
    (unread : script.Unread c (b :: rest) failAtEnd) :
    ∃ after, script.receive c 1 = (.ok ⟨[b], Nat.le_refl 1⟩, after) ∧
      after.Unread c rest failAtEnd ∧ Reads c script after := by
  obtain ⟨chunks, queued, bytes⟩ := unread
  match chunks with
  | [] => simp at bytes
  | [] :: later => exact absurd List.mem_cons_self queued.solid
  | [a] :: later =>
    simp only [List.flatten_cons, List.singleton_append, List.cons.injEq] at bytes
    obtain ⟨rfl, bytes⟩ := bytes
    obtain ⟨after, answer, next, reads⟩ := queued.receive_whole (Nat.le_refl 1)
    exact ⟨after, answer, ⟨later, next, bytes⟩, reads⟩
  | (a :: a' :: chunk) :: later =>
    simp only [List.flatten_cons, List.cons_append, List.cons.injEq] at bytes
    obtain ⟨rfl, bytes⟩ := bytes
    obtain ⟨after, answer, next, reads⟩ :=
      queued.receive_part (Nat.succ_lt_succ (Nat.succ_pos chunk.length))
    exact ⟨after, answer, ⟨_, next, by simpa using bytes⟩, reads⟩

def isDown (script : Script) (c : Handle) : Bool := (script.streams[c.index]?).any (!·.isOpen)

/-- Between the two states `c` may have been used, and nothing else has; where it was `ended` it is
down, and only going down is counted. -/
structure Uses (c : Handle) (before after : Script) (ended : Bool) : Prop where
  count : after.streams.length = before.streams.length
  others : ∀ i, i ≠ c.index → after.streams[i]? = before.streams[i]?
  down : after.isDown c = (before.isDown c || ended)
  tally : after.journal.disconnects + (before.isDown c).toNat =
    before.journal.disconnects + (after.isDown c).toNat

theorem isDown_eq (script : Script) (c : Handle) :
    script.isDown c = ((script.streams[c.index]?).map Stream.isOpen == some false) := by
  unfold isDown
  cases script.streams[c.index]? with
  | none => rfl
  | some stream => cases stream.isOpen <;> simp_all

theorem Reads.isDown (reads : Reads c before after) : after.isDown c = before.isDown c := by
  rw [isDown_eq, isDown_eq, reads.up]

theorem Reads.uses (reads : Reads c before after) : Uses c before after false where
  count := reads.count
  others := reads.others
  down := by rw [reads.isDown, Bool.or_false]
  tally := by rw [reads.isDown, reads.journal]

/-- A connection that is down can be ended any number of times. -/
theorem Reads.uses_of_down (reads : Reads c before after) (down : before.isDown c = true)
    (ended : Bool) : Uses c before after ended :=
  { reads.uses with down := by rw [reads.isDown, down, Bool.true_or] }

theorem uses_disconnect (made : c.index < before.streams.length) :
    Uses c before (before.disconnect c) true := by
  have found := List.getElem?_eq_getElem made
  unfold disconnect
  rw [found]
  dsimp only
  by_cases opened : before.streams[c.index].isOpen = true
  · rw [if_pos opened]
    exact ⟨List.length_set, fun i other => List.getElem?_set_ne (Ne.symm other),
      by simp [isDown, List.getElem?_set_self made], by simp [isDown, made, opened]⟩
  · rw [if_neg opened]
    refine (Reads.refl c before).uses_of_down ?_ true
    simpa [isDown, found] using opened

theorem Closes.uses (closes : Closes c before after)
    (made : c.index < before.streams.length) : Uses c before after true := by
  obtain ⟨between, reads, rfl⟩ := closes
  have first := reads.uses
  have last := uses_disconnect (first.count ▸ made)
  refine ⟨last.count.trans first.count, fun i other => ?_, ?_, ?_⟩
  · rw [last.others i other, first.others i other]
  · rw [last.down, Bool.or_true, Bool.or_true]
  · have down := first.down
    rw [Bool.or_false] at down
    rw [← down, ← reads.journal]
    exact last.tally

theorem uses_posted (c : Handle) (script : Script) (data : Bytes) :
    Uses c script (script.posted data) false :=
  ⟨rfl, fun _ _ => rfl, (Bool.or_false _).symm, rfl⟩

theorem send_cases (script : Script) (c : Handle) (data : Bytes) :
    (script.send c data = (.error .disconnected, script)) ∨
      (script.streams[c.index]?).map Stream.isOpen = some true ∧
        script.send c data = (.ok (.all data), script.posted data) := by
  unfold send
  cases found : script.streams[c.index]? with
  | none => exact .inl rfl
  | some stream =>
    cases opened : stream.isOpen with
    | false => exact .inl (by simp only [opened, Bool.false_eq_true, if_false])
    | true => exact .inr ⟨by rw [Option.map_some, opened], by simp only [opened, if_true, posted]⟩

theorem uses_send (script : Script) (c : Handle) (data : Bytes) :
    Uses c script (script.send c data).2 false := by
  obtain refused | ⟨-, sent⟩ := send_cases script c data
  · rw [refused]
    exact (Reads.refl c script).uses
  · rw [sent]
    exact uses_posted c script data

theorem uses_sendOver (script : Script) (c : Handle) (data : Bytes) :
    Uses c script (Link.sendOver (m := StateM Script) c data script).2 false := by
  by_cases empty : data = []
  · rw [empty, Link.sendOver]
    exact (Reads.refl c script).uses
  obtain refused | ⟨up, -⟩ := send_cases script c data
  · obtain ⟨b, data, rfl⟩ := List.exists_cons_of_ne_nil empty
    rw [Link.sendOver, bind_of_eq refused]
    exact (Reads.refl c script).uses
  · rw [sendOver_of_up up empty]
    exact uses_posted c script data

end Script
end CoreLocator.Network
