import CoreLocator.Proofs.Discovery.Stages
import CoreLocator.Proofs.Network.Transcript
import CoreLocator.Proofs.Response.Body
import CoreLocator.Proofs.Response.Head

/-! Connections in the hands of those who use them: as they come from the network, wrapped in a
link, or let go of. Whatever is done with them in whatever order, each is taken down once, as soon
as somebody is done with it, and a link that is closed stays closed. -/
namespace CoreLocator
open Network Network.Script Response

/-- Who has a connection: whoever asked for it, a link made of it, or nobody any more. -/
inductive Holder
  | bare
  | linked (link : Link Handle)
  | dropped

/-- A network and the holders of its connections, in the order in which these were made. -/
structure Custody where
  script : Script := {}
  holders : List Holder := []

inductive ConnectionUse
  | send (data : Bytes)
  | receive (buffer : Bytes)
  | disconnect
  | wrap

inductive LinkUse
  | sendAll (data : Bytes)
  | receive (buffer : Bytes)
  | close
  | drop
  | readHead
  | fetch (buffer : Bytes) (received documentSize : Nat)
  | receiveDocument (buffer : Bytes) (head : Head)

inductive Operation
  | route (entry : RouteEntry)
  | connect (endpoint : Endpoint)
  | start (endpoint : Endpoint) (thingName : String) (buffer : Bytes)
  | connection (i : Nat) (use : ConnectionUse)
  | link (i : Nat) (use : LinkUse)

/-- What comes back, with the buffer where there is one. -/
inductive Answer
  /-- There is no such connection, or it is not held in this way. -/
  | absent
  | done
  | connected (answer : Except Fault Handle)
  | started (outcome : Except Failure Unit) (buffer : Bytes)
  | sent (outcome : Except Fault Nat)
  | sentAll (outcome : Except Fault Unit)
  | received (outcome : Except Fault Nat) (buffer : Bytes)
  | head (outcome : Except Failure Head)
  | fetched (complete : Except Failure Bool) (buffer : Bytes) (received : Nat)
  | document (outcome : Except Failure Nat) (buffer : Bytes)

/-- Whether the body is complete, if the read has not failed. -/
def Response.Progress.outcome {κ : Type} {r : Reception κ} : Progress r → Except Failure Bool
  | .incomplete _ _ => .ok false
  | .complete _ => .ok true
  | .failed failure _ => .error failure

def ConnectionUse.run (c : Handle) : ConnectionUse → StateM Script (Answer × Holder)
  | send data => do
    let answer ← Network.send c data
    pure (.sent (answer.map (·.val)), .bare)
  | receive buffer => do
    let answer ← Network.receive c buffer.length
    pure (.received (fill buffer answer).1 (fill buffer answer).2, .bare)
  | disconnect => do
    Network.disconnect c
    pure (.done, .bare)
  | wrap => pure (.done, .linked (.ofConnection c))

def LinkUse.run (link : Link Handle) : LinkUse → StateM Script (Answer × Holder)
  | sendAll data => do
    let outcome ← link.sendAll data
    pure (.sentAll outcome, .linked link)
  | receive buffer => do
    let answer ← link.receive buffer.length
    pure (.received (fill buffer answer).1 (fill buffer answer).2, .linked link)
  | close => do
    let link ← link.close
    pure (.done, .linked link)
  | drop => do
    let _ ← link.close
    pure (.done, .dropped)
  | readHead => do
    let (outcome, link) ← Response.readHead link
    pure (.head outcome, .linked link)
  | fetch buffer received documentSize => do
    let progress ← Reception.fetch ⟨link, buffer, received⟩ documentSize
    let next := progress.next
    pure (.fetched progress.outcome next.buffer next.received, .linked next.link)
  | receiveDocument buffer head => do
    let (outcome, next) ← Response.receiveDocument link buffer head
    pure (.document outcome next.buffer, .linked next.link)

def ConnectionUse.ends : ConnectionUse → Answer → Bool
  | disconnect, .done => true
  | _, _ => false

/-- Whether the connection behind the link is done with: the link is closed or dropped, or what it
was given to has failed or has got all it wanted. -/
def LinkUse.ends : LinkUse → Answer → Bool
  | close, .done => true
  | drop, .done => true
  | readHead, .head (.error _) => true
  | fetch .., .fetched (.ok false) _ _ => false
  | fetch .., .fetched _ _ _ => true
  | receiveDocument .., .document _ _ => true
  | _, _ => false

namespace Operation

def connection? : Operation → Option Nat
  | connection i _ => some i
  | link i _ => some i
  | _ => none

def ends : Operation → Answer → Bool
  | connection _ use, answer => use.ends answer
  | link _ use, answer => use.ends answer
  | _, _ => false

end Operation

section Closed
variable (buffer : Bytes)

theorem pull_closed (received documentSize : Nat) (script : Script) : ∃ failure after,
    Reception.pull (m := StateM Script) (⟨⟨none⟩, buffer, received⟩ : Reception Handle)
      documentSize script = (.failed failure ⟨⟨none⟩, buffer, received⟩, after) ∧
    ∀ c, Reads c script after := by
  unfold Reception.pull
  split
  · exact ⟨_, _, rfl, fun c => reads_note c script _⟩
  · exact ⟨_, _, rfl, fun c => .refl c script⟩

theorem fetch_closed (received documentSize : Nat) (script : Script) : ∃ failure after,
    Reception.fetch (m := StateM Script) (⟨⟨none⟩, buffer, received⟩ : Reception Handle)
      documentSize script = (.failed failure ⟨⟨none⟩, buffer, received⟩, after) ∧
    ∀ c, Reads c script after := by
  obtain ⟨failure, after, pulled, kept⟩ := pull_closed buffer received documentSize script
  refine ⟨failure, after, ?_, kept⟩
  rw [Reception.fetch, bind_of_eq pulled]
  rfl

theorem receiveDocument_closed (head : Head) (script : Script) : ∃ failure after,
    Response.receiveDocument (m := StateM Script) (⟨none⟩ : Link Handle) buffer head script =
      ((.error failure, ⟨⟨none⟩, buffer, 0⟩), after) ∧
    ∀ c, Reads c script after := by
  unfold Response.receiveDocument
  split
  · exact ⟨_, _, rfl, fun c => reads_note c script _⟩
  · obtain ⟨failure, after, fetched, kept⟩ :=
      fetch_closed buffer 0 head.documentSize script
    exact ⟨failure, after, finish_of_failed fetched, kept⟩

end Closed

/-- From one holder of `c` to the next; a link loses it only where somebody was done with it. -/
inductive HandedOn (c : Handle) : Bool → Holder → Holder → Prop
  | kept {ended : Bool} (holder : Holder) : HandedOn c ended holder holder
  | wrapped : HandedOn c false .bare (.linked (.ofConnection c))
  | closed {link shut : Link Handle} (lost : shut = ⟨none⟩) :
      HandedOn c true (.linked link) (.linked shut)
  | dropped (link : Link Handle) : HandedOn c true (.linked link) .dropped

/-- A use of `c` by its holder, and whether somebody was then done with it. -/
structure UsedBy (c : Handle) (script : Script) (holder : Holder)
    (done : (Answer × Holder) × Script) (ended : Bool) : Prop where
  uses : Uses c script done.2 ended
  handed : HandedOn c ended holder done.1.2

section Use
variable {c : Handle} {script : Script}

theorem ConnectionUse.run_usedBy (made : c.index < script.streams.length)
    (use : ConnectionUse) : UsedBy c script .bare (use.run c script)
      (use.ends (use.run c script).1.1) := by
  cases use with
  | send data => exact ⟨uses_send script c data, .kept _⟩
  | receive buffer => exact ⟨(reads_receive script c buffer.length).uses, .kept _⟩
  | disconnect => exact ⟨uses_disconnect made, .kept _⟩
  | wrap => exact ⟨(Reads.refl c script).uses, .wrapped⟩

theorem LinkUse.run_usedBy (made : c.index < script.streams.length) (use : LinkUse) :
    UsedBy c script (.linked (.ofConnection c)) (use.run (.ofConnection c) script)
      (use.ends (use.run (.ofConnection c) script).1.1) := by
  cases use with
  | sendAll data => exact ⟨uses_sendOver script c data, .kept _⟩
  | receive buffer => exact ⟨(reads_receive script c buffer.length).uses, .kept _⟩
  | close => exact ⟨uses_disconnect made, .closed rfl⟩
  | drop => exact ⟨uses_disconnect made, .dropped _⟩
  | readHead =>
    obtain ⟨head, after, read, reads, -⟩ | ⟨failure, after, read, closes⟩ :=
      readHead_closes c script
    · rw [run, bind_of_eq read]
      exact ⟨reads.uses, .kept _⟩
    · rw [run, bind_of_eq read]
      exact ⟨closes.uses made, .closed rfl⟩
  | fetch buffer received documentSize =>
    obtain ⟨next, less, after, fetched, link, reads⟩ |
      ⟨progress, after, fetched, finished, link, closes, -⟩ :=
        fetch_closes ⟨.ofConnection c, buffer, received⟩ rfl documentSize script
    · rw [run, bind_of_eq fetched]
      refine ⟨reads.uses, ?_⟩
      change HandedOn c false _ (.linked next.link)
      rw [link]
      exact .kept _
    · rw [run, bind_of_eq fetched]
      cases progress with
      | incomplete next less => exact absurd rfl (finished next less)
      | complete next => exact ⟨closes.uses made, .closed link⟩
      | failed failure next => exact ⟨closes.uses made, .closed link⟩
  | receiveDocument buffer head =>
    obtain ⟨link, closes, -⟩ := receiveDocument_closes c buffer head script
    obtain ⟨outcome, next, after, received⟩ : ∃ outcome next after,
        Response.receiveDocument (m := StateM Script) (.ofConnection c) buffer head script =
          ((outcome, next), after) := ⟨_, _, _, rfl⟩
    rw [received] at link closes
    rw [run, bind_of_eq received]
    exact ⟨closes.uses made, .closed link⟩

/-- A closed link does not come near the network; only what it says of itself may be logged. -/
theorem LinkUse.run_closed_usedBy (down : script.isDown c = true) (use : LinkUse) :
    UsedBy c script (.linked ⟨none⟩) (use.run ⟨none⟩ script)
      (use.ends (use.run ⟨none⟩ script).1.1) := by
  cases use with
  | sendAll data => exact ⟨(Reads.refl c script).uses, .kept _⟩
  | receive buffer => exact ⟨(Reads.refl c script).uses, .kept _⟩
  | close => exact ⟨(Reads.refl c script).uses_of_down down true, .kept _⟩
  | drop => exact ⟨(Reads.refl c script).uses_of_down down true, .dropped _⟩
  | readHead => exact ⟨(Reads.refl c script).uses_of_down down true, .kept _⟩
  | fetch buffer received documentSize =>
    obtain ⟨failure, after, fetched, kept⟩ :=
      fetch_closed buffer received documentSize script
    rw [run, bind_of_eq fetched]
    exact ⟨(kept c).uses_of_down down _, .kept _⟩
  | receiveDocument buffer head =>
    obtain ⟨failure, after, received, kept⟩ :=
      receiveDocument_closed buffer head script
    rw [run, bind_of_eq received]
    exact ⟨(kept c).uses_of_down down _, .kept _⟩

end Use

namespace Custody

def perform (custody : Custody) : Operation → Answer × Custody
  | .route entry => (.done, { custody with script := custody.script.addRoute entry })
  | .connect endpoint =>
    match custody.script.connect endpoint with
    | (.error fault, script) => (.connected (.error fault), { custody with script })
    | (.ok c, script) => (.connected (.ok c), ⟨script, custody.holders ++ [.bare]⟩)
  | .start endpoint thingName buffer =>
    match Discovery.start (m := StateM Script) endpoint thingName buffer custody.script with
    | ((.error failure, buffer), script) =>
      (.started (.error failure) buffer, { custody with script })
    | ((.ok link, buffer), script) =>
      (.started (.ok ()) buffer, ⟨script, custody.holders ++ [.linked link]⟩)
  | .connection i use =>
    match custody.holders[i]? with
    | some .bare =>
      let ((answer, holder), script) := use.run ⟨i⟩ custody.script
      (answer, ⟨script, custody.holders.set i holder⟩)
    | _ => (.absent, custody)
  | .link i use =>
    match custody.holders[i]? with
    | some (.linked link) =>
      let ((answer, holder), script) := use.run link custody.script
      (answer, ⟨script, custody.holders.set i holder⟩)
    | _ => (.absent, custody)

/-- One operation of a history. -/
structure Step where
  before : Custody
  operation : Operation
  answer : Answer
  after : Custody

def history (custody : Custody) : List Operation → List Step
  | [] => []
  | operation :: later =>
    let (answer, after) := custody.perform operation
    ⟨custody, operation, answer, after⟩ :: after.history later

def following (custody : Custody) : List Operation → Custody
  | [] => custody
  | operation :: later => (custody.perform operation).2.following later

def Step.concerns (i : Nat) (step : Step) : Bool := step.operation.connection? == some i

/-- By how much the count of disconnects has grown. -/
def Step.rise (step : Step) : Nat :=
  step.after.script.journal.disconnects - step.before.script.journal.disconnects

/-- What the operations on one connection have added to the count of disconnects. -/
def added (i : Nat) : List Step → Nat
  | [] => 0
  | step :: later => (if step.concerns i then step.rise else 0) + added i later

/-- Whether somebody was done with the connection. -/
def ended (i : Nat) (steps : List Step) : Bool :=
  steps.any fun step => step.concerns i && step.operation.ends step.answer

/-- What one operation does: nothing to any connection, or one connection more, or a use of one by
its holder. -/
inductive Effect (custody : Custody) (operation : Operation) (answer : Answer) (next : Custody) :
    Prop
  | idle (streams : next.script.streams = custody.script.streams)
      (uncounted : next.script.journal.disconnects = custody.script.journal.disconnects)
      (holders : next.holders = custody.holders) (unended : operation.ends answer = false)
  | opened {stream : Stream} {holder : Holder}
      (streams : next.script.streams = custody.script.streams ++ [stream])
      (up : stream.isOpen = true)
      (uncounted : next.script.journal.disconnects = custody.script.journal.disconnects)
      (holders : next.holders = custody.holders ++ [holder])
      (held : holder = .bare ∨ holder = .linked (.ofConnection ⟨custody.script.streams.length⟩))
      (unrelated : operation.connection? = none)
  | used {i : Nat} {holder heir : Holder} (concerned : operation.connection? = some i)
      (held : custody.holders[i]? = some holder)
      (holders : next.holders = custody.holders.set i heir)
      (uses : Uses ⟨i⟩ custody.script next.script (operation.ends answer))
      (handed : HandedOn ⟨i⟩ (operation.ends answer) holder heir)

/-- Each connection has its holder, a link holds the connection that it was made of or none, and
what is counted is how many connections are down. -/
structure Sound (custody : Custody) : Prop where
  count : custody.holders.length = custody.script.streams.length
  owner : ∀ i c, custody.holders[i]? = some (Holder.linked ⟨some c⟩) → c = ⟨i⟩
  closed : ∀ i, custody.holders[i]? = some (Holder.linked ⟨none⟩) → custody.script.isDown ⟨i⟩ = true
  tally : custody.script.journal.disconnects =
    (List.range custody.holders.length).countP fun i => custody.script.isDown ⟨i⟩

theorem perform_effect {custody : Custody} (sound : Sound custody) (operation : Operation) :
    Effect custody operation (custody.perform operation).1 (custody.perform operation).2 := by
  have made {i : Nat} {holder : Holder} (held : custody.holders[i]? = some holder) :
      i < custody.script.streams.length := by
    obtain ⟨bound, -⟩ := List.getElem?_eq_some_iff.mp held
    exact sound.count ▸ bound
  cases operation with
  | route entry => exact .idle rfl rfl rfl rfl
  | connect endpoint =>
    unfold perform
    cases accepted : custody.script.accepts endpoint.host endpoint.port with
    | false =>
      simp only [connect_of_refused endpoint accepted]
      exact .idle rfl rfl rfl rfl
    | true =>
      obtain ⟨chunks, failAtEnd, route⟩ := respond_of_accepts accepted
      simp only [connect_of_respond endpoint route]
      exact .opened rfl rfl rfl rfl (.inl rfl) rfl
  | start endpoint thingName buffer =>
    unfold perform
    obtain ⟨outcome, written, wrote⟩ : ∃ outcome written,
        Request.write buffer thingName = (outcome, written) := ⟨_, _, rfl⟩
    cases outcome with
    | error failure =>
      simp only [Discovery.start_rejected wrote]
      exact .idle rfl rfl rfl rfl
    | ok length =>
      cases accepted : custody.script.accepts endpoint.host endpoint.port with
      | false =>
        obtain ⟨record, started⟩ := Discovery.start_refused endpoint wrote accepted
        simp only [started]
        exact .idle rfl rfl rfl rfl
      | true =>
        obtain ⟨chunks, failAtEnd, route⟩ := respond_of_accepts accepted
        obtain ⟨record, started⟩ := Discovery.start_sent endpoint wrote route
        simp only [started]
        exact .opened rfl rfl rfl rfl (.inr rfl) rfl
  | connection i use =>
    simp only [perform]
    split
    · next held =>
      have used := ConnectionUse.run_usedBy (c := ⟨i⟩) (made held) use
      exact .used rfl held rfl used.uses used.handed
    · exact .idle rfl rfl rfl (by cases use <;> rfl)
  | link i use =>
    simp only [perform]
    split
    · next link held =>
      -- A closed link gives no access to its connection, and that is known to be down.
      obtain ⟨_ | c⟩ := link
      · have used := LinkUse.run_closed_usedBy (sound.closed i held) use
        exact .used rfl held rfl used.uses used.handed
      · obtain rfl := sound.owner i c held
        have used := LinkUse.run_usedBy (c := ⟨i⟩) (made held) use
        exact .used rfl held rfl used.uses used.handed
    · exact .idle rfl rfl rfl (by cases use <;> rfl)

/-- Two counts that differ at one place only. -/
theorem countP_range_of_eq {n j : Nat} {p q : Nat → Bool} (inside : j < n)
    (same : ∀ i, i ≠ j → q i = p i) :
    (List.range n).countP q + (p j).toNat = (List.range n).countP p + (q j).toNat := by
  induction n with
  | zero => exact absurd inside (Nat.not_lt_zero j)
  | succ n ih =>
    simp only [List.range_succ, List.countP_append, List.countP_singleton]
    by_cases last : j = n
    · subst last
      have before : (List.range j).countP q = (List.range j).countP p :=
        List.countP_congr fun i member => by
          rw [same i (Nat.ne_of_lt (List.mem_range.mp member))]
      rw [before]
      cases p j <;> cases q j <;> simp
    · have earlier := ih (by omega)
      rw [same n (Ne.symm last)]
      omega

section Effect
variable {custody next : Custody} {operation : Operation} {answer : Answer}

theorem isDown_opened {stream : Stream}
    (streams : next.script.streams = custody.script.streams ++ [stream])
    (up : stream.isOpen = true) (i : Nat) :
    next.script.isDown ⟨i⟩ = custody.script.isDown ⟨i⟩ := by
  simp only [isDown, streams]
  by_cases old : i < custody.script.streams.length
  · rw [List.getElem?_append_left old]
  · rw [List.getElem?_append_right (Nat.le_of_not_lt old),
      List.getElem?_eq_none (Nat.le_of_not_lt old)]
    cases i - custody.script.streams.length with
    | zero => simp [up]
    | succ k => simp

theorem Effect.isDown (effect : Effect custody operation answer next) (i : Nat) :
    next.script.isDown ⟨i⟩ = (custody.script.isDown ⟨i⟩ ||
      (operation.connection? == some i && operation.ends answer)) := by
  cases effect with
  | idle streams _ _ unended => simp [Script.isDown, streams, unended]
  | opened streams up _ _ _ unrelated => simp [isDown_opened streams up, unrelated]
  | @used j holder heir concerned _ _ uses _ =>
    rw [concerned]
    by_cases same : i = j
    · subst same
      simpa using uses.down
    · have other : (some j == some i) = false := by simpa using Ne.symm same
      rw [other, Bool.false_and, Bool.or_false, Script.isDown, Script.isDown,
        uses.others i same]

/-- What is added to the count of disconnects is added by the connection that goes down. -/
theorem Effect.rise (effect : Effect custody operation answer next) {i : Nat}
    (concerned : operation.connection? = some i) :
    next.script.journal.disconnects + (custody.script.isDown ⟨i⟩).toNat =
      custody.script.journal.disconnects + (next.script.isDown ⟨i⟩).toNat := by
  cases effect with
  | idle streams uncounted _ _ => simp only [uncounted, Script.isDown, streams]
  | opened _ _ _ _ _ unrelated => simp [unrelated] at concerned
  | used concerned' _ _ uses _ =>
    obtain rfl := Option.some.inj (concerned.symm.trans concerned')
    exact uses.tally

theorem Effect.sound (effect : Effect custody operation answer next) (sound : Sound custody) :
    Sound next := by
  cases effect with
  | idle streams uncounted holders _ =>
    constructor
    · rw [holders, streams, sound.count]
    · rw [holders]
      exact sound.owner
    · simpa only [holders, Script.isDown, streams] using sound.closed
    · simpa only [holders, Script.isDown, streams, uncounted] using sound.tally
  | @opened stream holder streams up uncounted holders held _ =>
    have down := isDown_opened streams up
    have holds {i : Nat} {owner : Holder} (found : next.holders[i]? = some owner) :
        custody.holders[i]? = some owner ∨ i = custody.holders.length ∧ owner = holder := by
      rw [holders, List.getElem?_append] at found
      split at found
      · exact .inl found
      · next late =>
        obtain ⟨bound, rfl⟩ := List.getElem?_eq_some_iff.mp found
        rw [List.length_singleton] at bound
        exact .inr ⟨by omega, by simp⟩
    constructor
    · rw [holders, streams, List.length_append, List.length_append, sound.count]
      rfl
    · intro i c found
      rcases holds found with earlier | ⟨rfl, same⟩
      · exact sound.owner i c earlier
      · rcases held with rfl | rfl
        · cases same
        · rw [sound.count]
          exact Option.some.inj (Link.mk.inj (Holder.linked.inj same))
    · intro i found
      rcases holds found with earlier | ⟨rfl, same⟩
      · rw [down]
        exact sound.closed i earlier
      · rcases held with rfl | rfl <;> cases same
    · have unmade : custody.script.isDown ⟨custody.holders.length⟩ = false := by
        simp [Script.isDown, sound.count]
      simp [holders, uncounted, sound.tally, List.range_succ, down, unmade]
  | @used i holder heir concerned held holders uses handed =>
    generalize operation.ends answer = ended at uses handed
    -- Both what holders say and what is counted differ at this one connection only.
    have elsewhere (j : Nat) (other : j ≠ i) :
        next.script.isDown ⟨j⟩ = custody.script.isDown ⟨j⟩ := by
      rw [Script.isDown, Script.isDown, uses.others j other]
    obtain ⟨bound, -⟩ := List.getElem?_eq_some_iff.mp held
    have holds {j : Nat} {owner : Holder} (found : next.holders[j]? = some owner) :
        j ≠ i ∧ custody.holders[j]? = some owner ∨ j = i ∧ owner = heir := by
      by_cases same : j = i
      · rw [holders, same, List.getElem?_set_self bound] at found
        exact .inr ⟨same, (Option.some.inj found).symm⟩
      · rw [holders, List.getElem?_set_ne (Ne.symm same)] at found
        exact .inl ⟨same, found⟩
    constructor
    · rw [holders, List.length_set, uses.count, sound.count]
    · intro j c found
      rcases holds found with ⟨-, before⟩ | ⟨rfl, rfl⟩
      · exact sound.owner j c before
      · cases handed with
        | kept => exact sound.owner j c held
        | wrapped => rfl
        | closed lost => cases lost
    · intro j found
      rcases holds found with ⟨other, before⟩ | ⟨rfl, rfl⟩
      · rw [elsewhere j other]
        exact sound.closed j before
      · rw [uses.down]
        cases handed with
        | kept => rw [sound.closed j held, Bool.true_or]
        | closed => rw [Bool.or_true]
    · have counted := countP_range_of_eq bound elsewhere
      have tally := uses.tally
      rw [sound.tally] at tally
      rw [holders, List.length_set]
      omega

/-- The link of `i` is closed, or there was one that was dropped. -/
def Closed (custody : Custody) (i : Nat) : Prop :=
  custody.holders[i]? = some (.linked ⟨none⟩) ∨ custody.holders[i]? = some .dropped

theorem Effect.closed (effect : Effect custody operation answer next) {i : Nat}
    (closed : Closed custody i) : Closed next i := by
  cases effect with
  | idle _ _ holders _ =>
    rw [Closed, holders]
    exact closed
  | opened _ _ _ holders _ _ =>
    have bound : i < custody.holders.length := by
      rcases closed with found | found <;> exact (List.getElem?_eq_some_iff.mp found).1
    rw [Closed, holders, List.getElem?_append_left bound]
    exact closed
  | @used j holder heir _ held holders _ handed =>
    obtain ⟨bound, -⟩ := List.getElem?_eq_some_iff.mp held
    rw [Closed, holders]
    by_cases same : i = j
    · subst same
      rw [List.getElem?_set_self bound]
      rw [Closed, held] at closed
      generalize operation.ends answer = ended at handed
      cases handed with
      | kept => exact closed
      | wrapped => simp at closed
      | closed lost => exact .inl (by rw [lost])
      | dropped link => exact .inr rfl
    · rw [List.getElem?_set_ne (Ne.symm same)]
      exact closed

end Effect

theorem sound_empty : Sound {} :=
  ⟨rfl, by simp, by simp, rfl⟩

theorem Sound.following {custody : Custody} (sound : Sound custody)
    (operations : List Operation) : Sound (custody.following operations) := by
  induction operations generalizing custody with
  | nil => exact sound
  | cons operation later ih => exact ih ((perform_effect sound operation).sound sound)

theorem Sound.closed_following {custody : Custody} (sound : Sound custody) {i : Nat}
    (closed : Closed custody i) (operations : List Operation) :
    Closed (custody.following operations) i := by
  induction operations generalizing custody with
  | nil => exact closed
  | cons operation later ih =>
    have effect := perform_effect sound operation
    exact ih (effect.sound sound) (effect.closed closed)

theorem Sound.isDown_following {custody : Custody} (sound : Sound custody) (i : Nat)
    (operations : List Operation) : (custody.following operations).script.isDown ⟨i⟩ =
      (custody.script.isDown ⟨i⟩ || ended i (custody.history operations)) := by
  induction operations generalizing custody with
  | nil => exact (Bool.or_false _).symm
  | cons operation later ih =>
    have effect := perform_effect sound operation
    rw [Custody.following, ih (effect.sound sound), effect.isDown i, Bool.or_assoc]
    rfl

theorem Sound.added_following {custody : Custody} (sound : Sound custody) (i : Nat)
    (operations : List Operation) :
    added i (custody.history operations) + (custody.script.isDown ⟨i⟩).toNat =
      ((custody.following operations).script.isDown ⟨i⟩).toNat := by
  induction operations generalizing custody with
  | nil => exact Nat.zero_add _
  | cons operation later ih =>
    have effect := perform_effect sound operation
    have rest := ih (effect.sound sound)
    have down := effect.isDown i
    rw [history, added, Custody.following]
    by_cases concerned : operation.connection? = some i
    · have rise := effect.rise concerned
      have grown : (custody.script.isDown ⟨i⟩).toNat ≤
          ((custody.perform operation).2.script.isDown ⟨i⟩).toNat := by
        rw [down]
        cases custody.script.isDown ⟨i⟩ with
        | false => exact Nat.zero_le _
        | true => exact Nat.le_of_eq (by rw [Bool.true_or])
      rw [if_pos (by simpa [Step.concerns] using concerned)]
      simp only [Step.rise]
      omega
    · have other : (operation.connection? == some i) = false := by simpa using concerned
      rw [other, Bool.false_and, Bool.or_false] at down
      rw [if_neg (by simpa [Step.concerns] using concerned), Nat.zero_add, ← down]
      exact rest

theorem perform_of_closed {custody : Custody} {i : Nat} {answer : Answer}
    (held : custody.holders[i]? = some (.linked ⟨none⟩)) (use : LinkUse)
    (quiet : use.run ⟨none⟩ custody.script = ((answer, .linked ⟨none⟩), custody.script)) :
    custody.perform (.link i use) = (answer, custody) := by
  obtain ⟨bound, same⟩ := List.getElem?_eq_some_iff.mp held
  simp only [perform, held, quiet]
  rw [← same, List.set_getElem_self]

/-- Over any history each connection is counted once, as soon as somebody is done with it, and a
closed link stays closed, of no use and without effect. -/
theorem history_settles (operations : List Operation) :
    let steps := ({} : Custody).history operations
    let custody := ({} : Custody).following operations
    (∀ i, i < custody.holders.length → added i steps = if ended i steps then 1 else 0) ∧
    custody.script.journal.disconnects =
      (List.range custody.holders.length).countP (fun i => ended i steps) ∧
    Fault.linkClosed.kind = .notConnected ∧
    ∀ i link, custody.holders[i]? = some (.linked link) → link.isOpen = false → ∀ later,
      let afterwards := custody.following later
      afterwards.holders[i]? = some .dropped ∨
        afterwards.holders[i]? = some (.linked link) ∧
        (∀ data, afterwards.perform (.link i (.sendAll data)) =
          (.sentAll (.error .linkClosed), afterwards)) ∧
        ∀ buffer, afterwards.perform (.link i (.receive buffer)) =
          (.received (.error .linkClosed) buffer, afterwards) := by
  intro steps custody
  have sound : Sound custody := sound_empty.following operations
  have down (i : Nat) : custody.script.isDown ⟨i⟩ = ended i steps :=
    sound_empty.isDown_following i operations
  refine ⟨fun i _ => ?_, ?_, rfl, ?_⟩
  · have paid := sound_empty.added_following i operations
    change added i steps + 0 = (custody.script.isDown ⟨i⟩).toNat at paid
    rw [Nat.add_zero, down i] at paid
    rw [paid]
    cases ended i steps <;> rfl
  · rw [sound.tally]
    simp only [down]
  · intro i link held shut later afterwards
    obtain ⟨_ | c⟩ := link
    · rcases sound.closed_following (.inl held) later with found | dropped
      · exact .inr ⟨found, fun data => perform_of_closed found (.sendAll data) rfl,
          fun buffer => perform_of_closed found (.receive buffer) rfl⟩
      · exact .inl dropped
    · cases shut

end Custody
end CoreLocator
