import CoreLocator.Proofs.Network.History
import CoreLocator.Response.Body

/-! Routes added, connections made and reads from them, in any order. A connection delivers the
chunks of the route that was in force when it was made, whatever is read from other connections and
whatever routes are added later. -/
namespace CoreLocator.Network

/-- The count that a read returns, and the buffer behind it. -/
def fill (buffer : Bytes) : Except Fault (Received buffer.length) → Except Fault Nat × Bytes
  | .ok ⟨data, _⟩ => (.ok data.length, Response.overwrite buffer 0 data)
  | .error fault => (.error fault, buffer)

inductive Action
  | route (entry : RouteEntry)
  | connect (endpoint : Endpoint)
  | receive (c : Handle) (buffer : Bytes)
  deriving DecidableEq, Repr

/-- An action and what came of it; a read has its buffer before and after. -/
inductive Event
  | routed (entry : RouteEntry)
  | connected (endpoint : Endpoint) (answer : Except Fault Handle)
  | received (c : Handle) (before : Bytes) (outcome : Except Fault Nat) (after : Bytes)

namespace Event

def delivered (c : Handle) : Event → Bytes
  | received d _ (.ok n) after => if d = c then after.take n else []
  | _ => []

def route? (host : String) (port : UInt16) : Event → Option Route
  | routed entry => if entry.host = host ∧ entry.port = port then some entry.route else none
  | _ => none

end Event

/-- All that was read from `c`. -/
def delivered (c : Handle) (events : List Event) : Bytes := events.flatMap (Event.delivered c)

theorem delivered_append (c : Handle) (earlier later : List Event) :
    delivered c (earlier ++ later) = delivered c earlier ++ delivered c later :=
  List.flatMap_append

/-- The route that was added last for this host and port. -/
def latestRoute? (events : List Event) (host : String) (port : UInt16) : Option Route :=
  events.reverse.findSome? (Event.route? host port)

/-- A read from a connection that has delivered `got` of these chunks. -/
structure Reading (chunks : List Bytes) (failAtEnd : Bool) (got before : Bytes)
    (outcome : Except Fault Nat) (after : Bytes) : Prop where
  counted : ∀ n, outcome = .ok n →
    n ≤ before.length ∧ after.length = before.length ∧ after.drop n = before.drop n
  untouched : ∀ fault, outcome = .error fault → after = before
  /-- Until all is delivered, the bytes are the next ones of a single chunk. -/
  more : got ≠ chunks.flatten → ∃ front chunk later offset n,
    chunks = front ++ chunk :: later ∧ offset < chunk.length ∧
    got = front.flatten ++ chunk.take offset ∧
    outcome = .ok n ∧ n = min before.length (chunk.length - offset) ∧ (before ≠ [] → 1 ≤ n) ∧
    after.take n = (chunk.drop offset).take n
  finished : got = chunks.flatten → outcome = if failAtEnd then .error .reset else .ok 0

/-- Where a stream of chunks is once `got` is delivered: the chunks that are left, without those
that are empty. -/
inductive Remains (chunks : List Bytes) : Bytes → List Bytes → Prop
  | inside {front : List Bytes} {chunk : Bytes} {later : List Bytes} {offset : Nat}
      (split : chunks = front ++ chunk :: later) (within : offset < chunk.length) :
      Remains chunks (front.flatten ++ chunk.take offset)
        (chunk.drop offset :: later.filter (· ≠ []))
  | ended : Remains chunks chunks.flatten []

section Fill
variable {buffer data : Bytes}

theorem length_fill (answer : Except Fault (Received buffer.length)) :
    (fill buffer answer).2.length = buffer.length := by
  cases answer with
  | error fault => rfl
  | ok received =>
    exact Response.length_overwrite (by rw [Nat.zero_add]; exact received.2)

theorem take_fill (fits : data.length ≤ buffer.length) :
    (fill buffer (.ok ⟨data, fits⟩)).2.take data.length = data := by
  simp only [fill, Response.overwrite, List.take_zero, List.nil_append, List.take_left]

theorem drop_fill (fits : data.length ≤ buffer.length) :
    (fill buffer (.ok ⟨data, fits⟩)).2.drop data.length = buffer.drop data.length := by
  simp only [fill, Response.overwrite, List.take_zero, List.nil_append, List.drop_left,
    Nat.zero_add]

theorem counted_fill (answer : Except Fault (Received buffer.length)) (n : Nat)
    (counted : (fill buffer answer).1 = .ok n) : n ≤ buffer.length ∧
      (fill buffer answer).2.length = buffer.length ∧
      (fill buffer answer).2.drop n = buffer.drop n := by
  cases answer with
  | error fault => cases counted
  | ok received =>
    cases counted
    exact ⟨received.2, length_fill _, drop_fill received.2⟩

theorem untouched_fill (answer : Except Fault (Received buffer.length)) (fault : Fault)
    (failed : (fill buffer answer).1 = .error fault) : (fill buffer answer).2 = buffer := by
  cases answer with
  | error fault => rfl
  | ok received => cases failed

theorem delivered_fill (c : Handle) (fits : data.length ≤ buffer.length) :
    (Event.received c buffer (fill buffer (.ok ⟨data, fits⟩)).1
      (fill buffer (.ok ⟨data, fits⟩)).2).delivered c = data := by
  rw [fill, Event.delivered, if_pos rfl]
  exact take_fill fits

end Fill

namespace Reading
variable {chunks : List Bytes} {failAtEnd : Bool} {buffer : Bytes}

/-- Bytes from the middle of a chunk, as many as there is room for. -/
theorem inside {front later : List Bytes} {chunk data : Bytes} {offset : Nat}
    (split : chunks = front ++ chunk :: later) (within : offset < chunk.length)
    (fits : data.length ≤ buffer.length) (next : data = (chunk.drop offset).take buffer.length) :
    Reading chunks failAtEnd (front.flatten ++ chunk.take offset) buffer
      (fill buffer (.ok ⟨data, fits⟩)).1 (fill buffer (.ok ⟨data, fits⟩)).2 where
  counted := counted_fill _
  untouched := untouched_fill _
  more _ := by
    have size : data.length = min buffer.length (chunk.length - offset) := by
      rw [next, List.length_take, List.length_drop]
    refine ⟨front, chunk, later, offset, data.length, split, within, rfl, rfl, size, ?_, ?_⟩
    · intro nonempty
      have room := List.length_pos_iff.mpr nonempty
      omega
    · rw [take_fill fits, size, ← List.length_drop, ← List.take_take, List.take_length, next]
  finished all := by
    have lengths := congrArg List.length all
    simp only [split, List.flatten_append, List.flatten_cons, List.length_append,
      List.length_take] at lengths
    omega

/-- With nothing left there is no byte to take, however much room there is. -/
theorem ended (answer : Except Fault (Received buffer.length))
    (last : answer = if failAtEnd then .error .reset else .ok ⟨[], Nat.zero_le _⟩) :
    Reading chunks failAtEnd chunks.flatten buffer (fill buffer answer).1
      (fill buffer answer).2 where
  counted := counted_fill _
  untouched := untouched_fill _
  more unfinished := absurd rfl unfinished
  finished _ := by
    rw [last]
    cases failAtEnd <;> rfl

end Reading

namespace Remains
variable {chunks rest : List Bytes} {got : Bytes}

/-- Behind a whole chunk the next one begins that is not empty. -/
theorem of_front : ∀ (later front : List Bytes), chunks = front ++ later →
    Remains chunks front.flatten (later.filter (· ≠ []))
  | [], front, split => by
    rw [List.append_nil] at split
    exact split ▸ ended
  | [] :: later, front, split => by
    have skipped := of_front later (front ++ [[]]) (by rw [split, List.append_cons])
    simpa using skipped
  | (b :: chunk) :: later, front, split => by
    have begun := inside split (Nat.succ_pos chunk.length)
    simpa using begun

theorem beginning (remains : Remains chunks got rest) : got <+: chunks.flatten := by
  cases remains with
  | @inside front chunk later offset split within =>
    rw [split, List.flatten_append, List.flatten_cons]
    exact List.prefix_append_right_inj _ |>.mpr
      ((List.take_prefix offset chunk).trans (List.prefix_append _ _))
  | ended => exact List.prefix_rfl

end Remains

namespace Script
variable {script : Script} {c : Handle} {chunks rest : List Bytes} {got : Bytes} {failAtEnd : Bool}

def perform (script : Script) : Action → Event × Script
  | .route entry => (.routed entry, script.addRoute entry)
  | .connect endpoint =>
    let made := script.connect endpoint
    (.connected endpoint made.1, made.2)
  | .receive c buffer =>
    let read := script.receive c buffer.length
    let filled := fill buffer read.1
    (.received c buffer filled.1 filled.2, read.2)

def transcript (script : Script) : List Action → List Event
  | [] => []
  | action :: later => (script.perform action).1 :: (script.perform action).2.transcript later

def following (script : Script) : List Action → Script
  | [] => script
  | action :: later => (script.perform action).2.following later

theorem transcript_cons (script : Script) (action : Action) (later : List Action) :
    script.transcript (action :: later) =
      (script.perform action).1 :: (script.perform action).2.transcript later := rfl

/-- An event of a transcript is an action's, taken where the events before it have led. -/
theorem transcript_split {script : Script} {actions : List Action} {before behind : List Event}
    {event : Event} (split : script.transcript actions = before ++ event :: behind) :
    ∃ first action last, before = script.transcript first ∧
      event = ((script.following first).perform action).1 ∧
      behind = ((script.following first).perform action).2.transcript last := by
  induction before generalizing script actions with
  | nil =>
    cases actions with
    | nil => simp [transcript] at split
    | cons action later =>
      obtain ⟨rfl, rfl⟩ := List.cons.inj split
      exact ⟨[], action, later, rfl, rfl, rfl⟩
  | cons earlier before ih =>
    cases actions with
    | nil => simp [transcript] at split
    | cons action later =>
      obtain ⟨rfl, tail⟩ := List.cons.inj split
      obtain ⟨first, next, last, rfl, rfl, rfl⟩ := ih tail
      exact ⟨action :: first, next, last, rfl, rfl, rfl⟩

section Routes
variable (script : Script) (host : String) (port : UInt16)

theorem routeTo?_addRoute (entry : RouteEntry) : (script.addRoute entry).routeTo? host port =
    ((Event.routed entry).route? host port).or (script.routeTo? host port) := by
  simp only [routeTo?, addRoute, List.find?_append, List.find?_filter, Event.route?]
  by_cases same : entry.host = host ∧ entry.port = port
  · obtain ⟨rfl, rfl⟩ := same
    rw [List.find?_eq_none.mpr (by grind)]
    simp
  · have others (e : RouteEntry) :
        decide ((!(e.host == entry.host && e.port == entry.port)) = true ∧
          (e.host == host && e.port == port) = true) = (e.host == host && e.port == port) := by
      grind
    have unlike : (entry.host == host && entry.port == port) = false := by simpa using same
    simp only [others, if_neg same, List.find?_cons, unlike, List.find?_nil, Option.or_none,
      Option.none_or]

theorem routeTo?_perform (action : Action) : (script.perform action).2.routeTo? host port =
    ((script.perform action).1.route? host port).or (script.routeTo? host port) := by
  cases action with
  | route entry => exact routeTo?_addRoute script host port entry
  | connect endpoint =>
    simp only [perform, routeTo?, Event.route?, routes_connect]
    rfl
  | receive c buffer =>
    have same := (reads_receive script c buffer.length).routes
    simp only [perform, routeTo?, Event.route?, same]
    rfl

/-- A later route to an endpoint stands before all earlier ones. -/
theorem routeTo?_following (actions : List Action) :
    (script.following actions).routeTo? host port =
      (latestRoute? (script.transcript actions) host port).or (script.routeTo? host port) := by
  induction actions generalizing script with
  | nil => rfl
  | cons action later ih =>
    simp only [following, transcript_cons, latestRoute?, List.reverse_cons, List.findSome?_append,
      Option.or_assoc]
    rw [ih, routeTo?_perform]
    simp [latestRoute?]

end Routes

theorem Queued.of_stream {after : Script} (queued : script.Queued c rest failAtEnd)
    (same : after.streams[c.index]? = script.streams[c.index]?) : after.Queued c rest failAtEnd :=
  ⟨same.trans queued.stream, queued.solid⟩

/-- A read takes the connection to the place behind what it delivers. -/
theorem Queued.receive_remains (queued : script.Queued c rest failAtEnd)
    (remains : Remains chunks got rest) (buffer : Bytes) :
    ∃ answer next rest', script.receive c buffer.length = (answer, next) ∧
      next.Queued c rest' failAtEnd ∧
      Remains chunks (got ++ (Event.received c buffer (fill buffer answer).1
        (fill buffer answer).2).delivered c) rest' ∧
      Reading chunks failAtEnd got buffer (fill buffer answer).1 (fill buffer answer).2 := by
  cases remains with
  | @inside front chunk later offset split within =>
    by_cases fits : (chunk.drop offset).length ≤ buffer.length
    · obtain ⟨next, answer, queued, -⟩ := queued.receive_whole fits
      refine ⟨_, next, _, answer, queued, ?_,
        .inside split within fits (List.take_of_length_le fits).symm⟩
      have passed : chunks = front ++ [chunk] ++ later := by rw [split, List.append_cons]
      have behind := Remains.of_front later (front ++ [chunk]) passed
      rw [delivered_fill, List.append_assoc, List.take_append_drop]
      simpa using behind
    · obtain ⟨next, answer, queued, -⟩ := queued.receive_part (Nat.not_le.mp fits)
      refine ⟨_, next, _, answer, queued, ?_, .inside split within _ rfl⟩
      have short : offset + buffer.length < chunk.length := by
        rw [List.length_drop] at fits
        omega
      rw [delivered_fill, List.append_assoc, ← List.take_add, List.drop_drop]
      exact .inside split short
  | ended =>
    obtain ⟨next, answer, queued, -⟩ := queued.receive_end buffer.length
    refine ⟨_, next, [], answer, queued, ?_, .ended _ rfl⟩
    cases failAtEnd <;> simpa [fill, Event.delivered] using Remains.ended

/-- Whatever is done next, a connection stays in its route. -/
theorem Queued.perform_remains (queued : script.Queued c rest failAtEnd)
    (remains : Remains chunks got rest) (action : Action) :
    ∃ rest', (script.perform action).2.Queued c rest' failAtEnd ∧
      Remains chunks (got ++ (script.perform action).1.delivered c) rest' := by
  cases action with
  | route entry =>
    refine ⟨rest, queued.of_stream rfl, ?_⟩
    simpa [perform, Event.delivered] using remains
  | connect endpoint =>
    refine ⟨rest, queued.of_stream ?_, ?_⟩
    · obtain ⟨bound, -⟩ := List.getElem?_eq_some_iff.mp queued.stream
      unfold perform connect
      dsimp only
      split
      · exact List.getElem?_append_left bound
      · rfl
      · rfl
    · simpa [perform, Event.delivered] using remains
  | receive d buffer =>
    by_cases same : d = c
    · subst same
      obtain ⟨answer, next, rest', received, queued, remains, -⟩ :=
        queued.receive_remains remains buffer
      refine ⟨rest', ?_, ?_⟩
      · simpa only [perform, received] using queued
      · simpa only [perform, received] using remains
    · have elsewhere : c.index ≠ d.index := fun same' => same (by cases c; cases d; simp_all)
      have others := (reads_receive script d buffer.length).others
      refine ⟨rest, queued.of_stream (others c.index elsewhere), ?_⟩
      have nothing : (script.perform (.receive d buffer)).1.delivered c = [] := by
        simp only [perform]
        unfold Event.delivered
        split <;> simp_all
      rw [nothing, List.append_nil]
      exact remains

theorem Queued.following_remains {script : Script} {got : Bytes} {rest : List Bytes}
    (queued : script.Queued c rest failAtEnd) (remains : Remains chunks got rest)
    (actions : List Action) : ∃ rest', (script.following actions).Queued c rest' failAtEnd ∧
      Remains chunks (got ++ delivered c (script.transcript actions)) rest' := by
  induction actions generalizing script got rest with
  | nil => exact ⟨rest, queued, by simpa [transcript, delivered] using remains⟩
  | cons action later ih =>
    obtain ⟨between, queued, remains⟩ := queued.perform_remains remains action
    obtain ⟨rest', queued, remains⟩ := ih queued remains
    refine ⟨rest', queued, ?_⟩
    rw [transcript_cons, delivered, List.flatMap_cons, ← List.append_assoc]
    exact remains

theorem Queued.reading (queued : script.Queued c rest failAtEnd)
    (remains : Remains chunks got rest) {actions : List Action} {earlier later : List Event}
    {buffer after : Bytes} {outcome : Except Fault Nat}
    (read : script.transcript actions =
      earlier ++ .received c buffer outcome after :: later) :
    Reading chunks failAtEnd (got ++ delivered c earlier) buffer outcome after := by
  obtain ⟨first, action, last, rfl, event, -⟩ := transcript_split read
  obtain ⟨between, queued, remains⟩ := queued.following_remains remains first
  cases action with
  | route entry => cases event
  | connect endpoint => cases event
  | receive d room =>
    simp only [perform, Event.received.injEq] at event
    obtain ⟨rfl, rfl, rfl, rfl⟩ := event
    obtain ⟨answer, next, _, received, -, -, reading⟩ := queued.receive_remains remains buffer
    rw [received]
    exact reading

/-- A connection that has come about stands at the beginning of the route for its endpoint. -/
theorem queued_of_connected {action : Action} {endpoint : Endpoint}
    (event : .connected endpoint (.ok c) = (script.perform action).1) :
    ∃ chunks failAtEnd,
      script.routeTo? endpoint.host endpoint.port = some (.respond chunks failAtEnd) ∧
      (script.perform action).2.Queued c (chunks.filter (· ≠ [])) failAtEnd := by
  cases action with
  | route entry => cases event
  | receive d buffer => cases event
  | connect asked =>
    simp only [perform, Event.connected.injEq] at event
    obtain ⟨rfl, answer⟩ := event
    cases accepted : script.accepts endpoint.host endpoint.port with
    | false =>
      rw [connect_of_refused endpoint accepted] at answer
      cases answer
    | true =>
      obtain ⟨chunks, failAtEnd, route⟩ := respond_of_accepts accepted
      have connected := connect_of_respond endpoint route
      rw [connected] at answer
      obtain rfl := Except.ok.inj answer
      refine ⟨chunks, failAtEnd, route, ?_, by simp⟩
      simp only [perform, connected]
      exact List.getElem?_concat_length

/-- In any sequence of routes, connections and reads, a connection delivers the chunks of the route
that was the last one for its endpoint when it was made, and then its end. -/
theorem transcript_delivers {actions : List Action} {before behind : List Event}
    {endpoint : Endpoint} {c : Handle}
    (made : ({} : Script).transcript actions =
      before ++ .connected endpoint (.ok c) :: behind) :
    ∃ chunks failAtEnd,
      latestRoute? before endpoint.host endpoint.port = some (.respond chunks failAtEnd) ∧
      delivered c behind <+: chunks.flatten ∧
      (∀ earlier buffer outcome after later,
        behind = earlier ++ .received c buffer outcome after :: later →
        Reading chunks failAtEnd (delivered c earlier) buffer outcome after) ∧
      ∀ earlier later, behind = earlier ++ later → delivered c earlier = chunks.flatten →
        ∀ buffer outcome after, .received c buffer outcome after ∈ later →
          outcome = if failAtEnd then .error .reset else .ok 0 := by
  obtain ⟨first, action, last, rfl, event, rfl⟩ := transcript_split made
  obtain ⟨chunks, failAtEnd, route, queued⟩ := queued_of_connected event
  rw [routeTo?_following] at route
  have start : Remains chunks [] (chunks.filter (· ≠ [])) := .of_front chunks [] rfl
  obtain ⟨_, -, remains⟩ := queued.following_remains start last
  have all := remains.beginning
  refine ⟨chunks, failAtEnd, by simpa [routeTo?] using route, all, ?_, ?_⟩
  · intro earlier buffer outcome after later read
    exact queued.reading start read
  · intro earlier later split whole buffer outcome after read
    obtain ⟨middle, last, rfl⟩ := List.append_of_mem read
    rw [← List.append_assoc] at split
    -- Nothing can have been delivered in between, for there is nothing left.
    have still : delivered c (earlier ++ middle) = chunks.flatten := by
      rw [split, List.nil_append, delivered_append] at all
      refine ((List.prefix_append _ _).trans all).eq_of_length_le ?_
      rw [delivered_append, whole, List.length_append]
      exact Nat.le_add_right _ _
    exact (queued.reading start split).finished still

/-- The route is replaced between two connections to one endpoint. The first of them is read without
any room, beside an empty chunk, and past its end. -/
theorem transcript_delivers_replaced :
    let old : RouteEntry := ⟨"core", 8443, .respond [[], [1, 2, 3], [], [4]] false⟩
    let new : RouteEntry := ⟨"core", 8443, .respond [[9]] true⟩
    let core : Endpoint := { host := "core", port := 8443 }
    let behind : List Event := [.routed new, .connected core (.ok ⟨1⟩),
      .received ⟨0⟩ [] (.ok 0) [], .received ⟨1⟩ [7, 7] (.ok 1) [9, 7],
      .received ⟨0⟩ [7, 7] (.ok 2) [1, 2], .received ⟨1⟩ [7] (.error .reset) [7],
      .received ⟨0⟩ [7, 7] (.ok 1) [3, 7], .received ⟨0⟩ [7, 7] (.ok 1) [4, 7],
      .received ⟨0⟩ [7] (.ok 0) [7]]
    let actions : List Action := [.route old, .connect core, .route new, .connect core,
      .receive ⟨0⟩ [], .receive ⟨1⟩ [7, 7], .receive ⟨0⟩ [7, 7], .receive ⟨1⟩ [7],
      .receive ⟨0⟩ [7, 7], .receive ⟨0⟩ [7, 7], .receive ⟨0⟩ [7]]
    ({} : Script).transcript actions = [.routed old] ++ .connected core (.ok ⟨0⟩) :: behind ∧
      delivered ⟨0⟩ behind <+: [1, 2, 3, 4] ∧
      Reading [[], [1, 2, 3], [], [4]] false [1, 2, 3] [7, 7] (.ok 1) [4, 7] := by
  intro old new core behind actions
  have made : ({} : Script).transcript actions =
      [.routed old] ++ .connected core (.ok ⟨0⟩) :: behind := by
    simp [actions, behind, old, new, core, transcript, perform, addRoute, connect, routeTo?,
      Stream.ofRoute, receive, Stream.receive, fill, Response.overwrite]
  obtain ⟨chunks, failAtEnd, latest, all, reading, -⟩ := transcript_delivers made
  have route : latestRoute? [.routed old] core.host core.port = some old.route := by
    decide +kernel
  obtain ⟨rfl, rfl⟩ := Route.respond.inj (Option.some.inj (latest.symm.trans route))
  exact ⟨made, all, reading (behind.take 7) [7, 7] (.ok 1) [4, 7] (behind.drop 8) rfl⟩

end Script
end CoreLocator.Network
