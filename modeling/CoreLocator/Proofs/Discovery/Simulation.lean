import CoreLocator.Discovery
import CoreLocator.Proofs.Network.Simulation
import CoreLocator.Proofs.Request
import CoreLocator.Proofs.Response.Body

/-! A discovery on two networks that answer alike: it returns the same on both, and leaves both
without a connection. What the buffers held before does not matter. -/
namespace CoreLocator.Network
open Response

variable {σ τ κ κ' : Type} [Network (StateM σ) κ] [Network (StateM τ) κ'] [Log (StateM σ)]
  [Log (StateM τ)] {Idle : σ → τ → Prop} {Busy : κ → κ' → σ → τ → Prop}

/-- How two reads of a head end alike: the connection is kept, or gone if there was no head. -/
inductive HeadRead (Idle : σ → τ → Prop) (Busy : κ → κ' → σ → τ → Prop) :
    Except Failure Head × Link κ → Except Failure Head × Link κ' → σ → τ → Prop
  | kept {head : Head} {c : κ} {c' : κ'} {s : σ} {t : τ} : Busy c c' s t →
      HeadRead Idle Busy (.ok head, .ofConnection c) (.ok head, .ofConnection c') s t
  | closed {failure : Failure} {s : σ} {t : τ} : Idle s t →
      HeadRead Idle Busy (.error failure, ⟨none⟩) (.error failure, ⟨none⟩) s t

/-- As much has arrived for both receptions, and the same. -/
inductive Alike (link : Link κ) (link' : Link κ') : Reception κ → Reception κ' → Prop
  | intro {buffer buffer' : Bytes} {received : Nat} : buffer'.length = buffer.length →
      buffer'.take received = buffer.take received →
      Alike link link' ⟨link, buffer, received⟩ ⟨link', buffer', received⟩

section Head
variable (sim : Simulation Idle Busy) (c : κ) (c' : κ')
include sim

theorem Simulation.scanHead (scanner : HeadScanner) (budget : Nat) :
    Matches (Busy c c') (Same (Busy c c'))
      (Response.scanHead (m := StateM σ) (.ofConnection c) scanner budget)
      (Response.scanHead (m := StateM τ) (.ofConnection c') scanner budget) := by
  induction budget generalizing scanner with
  | zero => exact matches_pure fun _ _ busy => ⟨rfl, busy⟩
  | succ budget ih =>
    refine (sim.receive c c' 1).bind_same fun answer => ?_
    rcases answer with fault | ⟨_ | ⟨b, more⟩, fits⟩
    · exact matches_pure fun _ _ busy => ⟨rfl, busy⟩
    · exact matches_pure fun _ _ busy => ⟨rfl, busy⟩
    · dsimp only
      obtain ⟨outcome, next⟩ := scanner.push b
      rcases outcome with defect | _ | head
      · exact matches_pure fun _ _ busy => ⟨rfl, busy⟩
      · exact ih next
      · exact (sim.busy_record c c' _).bind_same fun _ =>
          matches_pure fun _ _ busy => ⟨rfl, busy⟩

theorem Simulation.readHead : Matches (Busy c c') (HeadRead Idle Busy)
    (Response.readHead (m := StateM σ) (.ofConnection c))
    (Response.readHead (m := StateM τ) (.ofConnection c')) := by
  refine (sim.scanHead c c' .new maxHeadLength).bind_same fun outcome => ?_
  cases outcome with
  | error failure =>
    refine sim.close.bind fun link link' => matches_pure fun s t closed => ?_
    obtain ⟨rfl, rfl, idle⟩ := closed
    exact .closed idle
  | ok head => exact matches_pure fun _ _ busy => .kept busy

end Head

section Buffers
variable {buffer buffer' data : Bytes} {received : Nat} (capacity : buffer'.length = buffer.length)
  (arrived : buffer'.take received = buffer.take received)
include capacity arrived

theorem overwrite_alike (inside : received + data.length ≤ buffer.length) :
    (overwrite buffer' received data).length = (overwrite buffer received data).length ∧
      (overwrite buffer' received data).take (received + data.length) =
        (overwrite buffer received data).take (received + data.length) := by
  constructor
  · rw [length_overwrite inside, length_overwrite (capacity ▸ inside), capacity]
  · rw [take_overwrite_add (by omega), take_overwrite_add (by omega), arrived]

/-- What is written behind the bytes that have arrived does not matter to them. -/
theorem overwrite_behind (inside : received + data.length ≤ buffer.length) :
    (overwrite buffer' received data).length = (overwrite buffer received data).length ∧
      (overwrite buffer' received data).take received =
        (overwrite buffer received data).take received := by
  refine ⟨(overwrite_alike capacity arrived inside).1, ?_⟩
  rw [take_overwrite (by omega), take_overwrite (by omega), arrived]

end Buffers

section Body
variable (sim : Simulation Idle Busy) {c : κ} {c' : κ'}

/-- How two reads of a body end alike. -/
inductive Pulled (link : Link κ) (link' : Link κ') {r : Reception κ} {r' : Reception κ'} :
    Progress r → Progress r' → Prop
  | incomplete {next : Reception κ} {next' : Reception κ'} {less less'} :
      Alike link link' next next' → Pulled link link' (.incomplete next less)
        (.incomplete next' less')
  | complete {next : Reception κ} {next' : Reception κ'} :
      Alike link link' next next' → Pulled link link' (.complete next) (.complete next')
  | failed {failure : Failure} {next : Reception κ} {next' : Reception κ'} :
      Alike link link' next next' → Pulled link link' (.failed failure next) (.failed failure next')

include sim

theorem Simulation.receive_of_eq {room room' : Nat} (same : room' = room) :
    Matches (Busy c c')
      (fun answer answer' s t => answer'.map Subtype.val = answer.map Subtype.val ∧ Busy c c' s t)
      (Network.receive (m := StateM σ) c room) (Network.receive (m := StateM τ) c' room') := by
  subst same
  refine (sim.receive c c' room').weaken (fun _ _ busy => busy) fun _ _ _ _ answered => ?_
  exact ⟨congrArg _ answered.1.symm, answered.2⟩

theorem Simulation.pull {buffer buffer' : Bytes} {received : Nat} (documentSize : Nat)
    (capacity : buffer'.length = buffer.length)
    (arrived : buffer'.take received = buffer.take received) :
    Matches (Busy c c')
      (fun p p' s t => Pulled (.ofConnection c) (.ofConnection c') p p' ∧ Busy c c' s t)
      (Reception.pull (m := StateM σ) ⟨.ofConnection c, buffer, received⟩ documentSize)
      (Reception.pull (m := StateM τ) ⟨.ofConnection c', buffer', received⟩ documentSize) := by
  have same : (⟨.ofConnection c', buffer', received⟩ : Reception κ').capacity =
      (⟨.ofConnection c, buffer, received⟩ : Reception κ).capacity := capacity
  have room : (⟨.ofConnection c, buffer, received⟩ : Reception κ).capacity = buffer.length := rfl
  unfold Reception.pull
  by_cases full : (⟨.ofConnection c, buffer, received⟩ : Reception κ).capacity ≤ received
  · simp only [same, full, ↓reduceDIte]
    exact (sim.busy_record c c' _).bind_same fun _ =>
      matches_pure fun _ _ busy => ⟨.failed ⟨capacity, arrived⟩, busy⟩
  simp only [same, full, ↓reduceDIte]
  have rooms : buffer'.length - received = buffer.length - received := by rw [capacity]
  refine (sim.receive_of_eq rooms).bind fun answer answer' => ?_
  refine matches_of_imp fun same => ?_
  rcases answer with fault | ⟨_ | ⟨b, data⟩, fits⟩ <;>
    rcases answer' with fault' | ⟨_ | ⟨b', data'⟩, fits'⟩ <;>
    simp only [Except.map, reduceCtorEq, Except.error.injEq, Except.ok.injEq, List.cons.injEq]
      at same
  · subst same
    exact matches_pure fun _ _ busy => ⟨.failed ⟨capacity, arrived⟩, busy⟩
  · exact matches_pure fun _ _ busy => ⟨.failed ⟨capacity, arrived⟩, busy⟩
  obtain ⟨rfl, rfl⟩ := same
  dsimp only
  have inside : received + (b' :: data').length ≤ buffer.length := by omega
  obtain ⟨sizes, both⟩ := overwrite_alike capacity arrived inside
  by_cases long : documentSize - 1 < received + (b' :: data').length
  · rw [if_pos long, if_pos long]
    exact (sim.busy_record c c' _).bind_same fun _ =>
      matches_pure fun _ _ busy => ⟨.failed ⟨sizes, both⟩, busy⟩
  rw [if_neg long, if_neg long]
  by_cases short : received + (b' :: data').length < documentSize - 1
  · rw [if_pos short, if_pos short]
    exact (sim.busy_record c c' _).bind_same fun _ =>
      matches_pure fun _ _ busy => ⟨.incomplete ⟨sizes, both⟩, busy⟩
  rw [if_neg short, if_neg short]
  by_cases small : (⟨.ofConnection c, buffer, received⟩ : Reception κ).capacity ≤ documentSize - 1
  · rw [if_pos small, if_pos small]
    exact matches_pure fun _ _ busy => ⟨.failed ⟨sizes, both⟩, busy⟩
  rw [if_neg small, if_neg small]
  have reached : received + (b' :: data').length = documentSize - 1 := by omega
  rw [reached] at both ⊢
  have last : documentSize - 1 + [(0 : UInt8)].length ≤
      (overwrite buffer received (b' :: data')).length := by
    rw [length_overwrite inside, List.length_singleton]
    omega
  obtain ⟨ended, kept⟩ := overwrite_behind sizes both last
  exact (sim.busy_record c c' _).bind_same fun _ =>
    matches_pure fun _ _ busy => ⟨.complete ⟨ended, kept⟩, busy⟩

omit sim

/-- After a read that ends the reception the connection is gone. -/
inductive Fetched (Idle : σ → τ → Prop) (Busy : κ → κ' → σ → τ → Prop) {r : Reception κ}
    {r' : Reception κ'} : Progress r → Progress r' → σ → τ → Prop
  | incomplete {c : κ} {c' : κ'} {buffer buffer' : Bytes} {received : Nat} {less less'} {s : σ}
      {t : τ} : buffer'.length = buffer.length → buffer'.take received = buffer.take received →
      Busy c c' s t →
      Fetched Idle Busy (.incomplete ⟨.ofConnection c, buffer, received⟩ less)
        (.incomplete ⟨.ofConnection c', buffer', received⟩ less') s t
  | complete {next : Reception κ} {next' : Reception κ'} {s : σ} {t : τ} :
      Alike ⟨none⟩ ⟨none⟩ next next' → Idle s t →
      Fetched Idle Busy (.complete next) (.complete next') s t
  | failed {failure : Failure} {next : Reception κ} {next' : Reception κ'} {s : σ} {t : τ} :
      Alike ⟨none⟩ ⟨none⟩ next next' → Idle s t →
      Fetched Idle Busy (.failed failure next) (.failed failure next') s t

/-- How two receptions end alike. -/
inductive Finished (Idle : σ → τ → Prop) :
    Except Failure Nat × Reception κ → Except Failure Nat × Reception κ' → σ → τ → Prop
  | done {next : Reception κ} {next' : Reception κ'} {s : σ} {t : τ} :
      Alike ⟨none⟩ ⟨none⟩ next next' → Idle s t →
      Finished Idle (.ok next.received, next) (.ok next.received, next') s t
  | failed {failure : Failure} {next : Reception κ} {next' : Reception κ'} {s : σ} {t : τ} :
      Alike ⟨none⟩ ⟨none⟩ next next' → Idle s t →
      Finished Idle (.error failure, next) (.error failure, next') s t

include sim

section Reception
variable {buffer buffer' : Bytes} (capacity : buffer'.length = buffer.length)
include capacity

theorem Simulation.fetch {received : Nat} (documentSize : Nat)
    (arrived : buffer'.take received = buffer.take received) :
    Matches (Busy c c') (Fetched Idle Busy)
      (Reception.fetch (m := StateM σ) ⟨.ofConnection c, buffer, received⟩ documentSize)
      (Reception.fetch (m := StateM τ) ⟨.ofConnection c', buffer', received⟩ documentSize) := by
  refine (sim.pull documentSize capacity arrived).bind fun p p' => matches_of_imp fun pulled => ?_
  cases pulled with
  | incomplete alike =>
    obtain ⟨sizes, both⟩ := alike
    exact matches_pure fun _ _ busy => .incomplete sizes both busy
  | complete alike =>
    obtain ⟨sizes, both⟩ := alike
    refine sim.close.bind fun link link' => matches_pure fun s t closed => ?_
    obtain ⟨rfl, rfl, idle⟩ := closed
    exact .complete ⟨sizes, both⟩ idle
  | failed alike =>
    obtain ⟨sizes, both⟩ := alike
    refine sim.close.bind fun link link' => matches_pure fun s t closed => ?_
    obtain ⟨rfl, rfl, idle⟩ := closed
    exact .failed ⟨sizes, both⟩ idle

theorem Simulation.finish {received : Nat} (documentSize : Nat)
    (arrived : buffer'.take received = buffer.take received) :
    Matches (Busy c c') (Finished Idle)
      (Reception.finish (m := StateM σ) ⟨.ofConnection c, buffer, received⟩ documentSize)
      (Reception.finish (m := StateM τ) ⟨.ofConnection c', buffer', received⟩ documentSize) := by
  -- One side's room measures both, since each read brings both sides equally far.
  induction room : (⟨.ofConnection c, buffer, received⟩ : Reception κ).room
    using Nat.strongRecOn generalizing c c' buffer buffer' received with
  | ind room ih =>
    rw [Reception.finish, Reception.finish]
    refine (sim.fetch capacity documentSize arrived).bind fun p p' => ?_
    intro s t fetched
    cases fetched with
    | @incomplete _ _ _ _ _ less _ _ _ sizes both busy =>
      exact ih _ (room ▸ less) sizes both rfl s t busy
    | @complete next next' _ _ alike idle =>
      have same : next'.received = next.received := by cases alike; rfl
      have ended : Finished Idle (.ok next.received, next) (.ok next'.received, next') s t :=
        same ▸ .done alike idle
      exact ended
    | failed alike idle => exact .failed alike idle

theorem Simulation.receiveDocument (head : Head) : Matches (Busy c c') (Finished Idle)
    (Response.receiveDocument (m := StateM σ) (.ofConnection c) buffer head)
    (Response.receiveDocument (m := StateM τ) (.ofConnection c') buffer' head) := by
  unfold Response.receiveDocument
  simp only [capacity]
  by_cases small : buffer.length < head.documentSize
  · rw [if_pos small, if_pos small]
    refine sim.close.bind fun link link' => ?_
    intro s t closed
    obtain ⟨rfl, rfl, idle⟩ := closed
    refine (sim.idle_record _).bind_same (fun _ => matches_pure fun _ _ idle => ?_) s t idle
    exact .failed ⟨capacity, rfl⟩ idle
  · rw [if_neg small, if_neg small]
    exact sim.finish capacity head.documentSize rfl

end Reception
end Body

section Choice
variable (sim : Simulation Idle Busy)
include sim

theorem Simulation.probe (ca : Bytes) (tried : Nat) (candidates : List Candidate) :
    Matches Idle (Same Idle) (Selection.probe (m := StateM σ) ca tried candidates)
      (Selection.probe (m := StateM τ) ca tried candidates) := by
  induction candidates generalizing tried with
  | nil =>
    exact (sim.idle_record _).bind_same fun _ => matches_pure fun _ _ idle => ⟨rfl, idle⟩
  | cons c rest ih =>
    rw [Selection.probe, Selection.probe]
    by_cases valid : Candidate.isValidAddress c.host = true
    · rw [if_pos valid, if_pos valid]
      cases c.selected? with
      | none => exact (sim.idle_record _).bind_same fun _ => ih (tried + 1)
      | some selected =>
        refine (sim.connect _).bind fun answer answer' => ?_
        intro s t dialled
        cases dialled with
        | down idle => exact (sim.idle_record _).bind_same (fun _ => ih (tried + 1)) s t idle
        | up busy =>
          refine sim.close.bind (fun link link' => ?_) s t busy
          refine Matches.weaken ?_ (fun _ _ closed => closed.2.2) fun _ _ _ _ same => same
          exact (sim.idle_record _).bind_same fun _ => matches_pure fun _ _ idle => ⟨rfl, idle⟩
    · rw [if_neg valid, if_neg valid]
      exact (sim.idle_record _).bind_same fun _ => ih (tried + 1)

theorem Simulation.choose (selection : Selection) (document ca : Bytes) :
    Matches Idle (Same Idle) (selection.choose (m := StateM σ) document ca)
      (selection.choose (m := StateM τ) document ca) := by
  cases selection with
  | automatic => exact sim.probe ca 0 (Candidate.list document)
  | manual index =>
    dsimp only [Selection.choose]
    generalize (Candidate.at? document index).bind Candidate.selected? = found
    cases found with
    | none => exact (sim.idle_record _).bind_same fun _ => matches_pure fun _ _ idle => ⟨rfl, idle⟩
    | some s =>
      exact (sim.idle_record _).bind_same fun _ => matches_pure fun _ _ idle => ⟨rfl, idle⟩

theorem Simulation.interpret (document : Bytes) (selection : Selection) :
    Matches Idle (Same Idle) (Discovery.interpret (m := StateM σ) document selection)
      (Discovery.interpret (m := StateM τ) document selection) := by
  unfold Discovery.interpret
  cases Document.validate document with
  | error defect => exact matches_pure fun _ _ idle => ⟨rfl, idle⟩
  | ok _ =>
    dsimp only
    cases Document.require document Document.certificatePath with
    | error failure => exact matches_pure fun _ _ idle => ⟨rfl, idle⟩
    | ok raw =>
      dsimp only
      cases Certificate.decode raw with
      | error defect => exact matches_pure fun _ _ idle => ⟨rfl, idle⟩
      | ok certificate =>
        refine (sim.choose selection document certificate).bind_same fun chosen => ?_
        cases chosen with
        | error failure => exact matches_pure fun _ _ idle => ⟨rfl, idle⟩
        | ok selected => exact matches_pure fun _ _ idle => ⟨rfl, idle⟩

end Choice

section Run
variable (sim : Simulation Idle Busy)

/-- How two starts end alike. -/
inductive Begun (Idle : σ → τ → Prop) (Busy : κ → κ' → σ → τ → Prop) (capacity : Nat) :
    Except Failure (Link κ) × Bytes → Except Failure (Link κ') × Bytes → σ → τ → Prop
  | sent {c : κ} {c' : κ'} {written written' : Bytes} {s : σ} {t : τ} : Busy c c' s t →
      written.length = capacity → written'.length = capacity →
      Begun Idle Busy capacity (.ok (.ofConnection c), written)
        (.ok (.ofConnection c'), written') s t
  | stopped {failure : Failure} {written written' : Bytes} {s : σ} {t : τ} : Idle s t →
      written.length = capacity → written'.length = capacity →
      Begun Idle Busy capacity (.error failure, written) (.error failure, written') s t

/-- How two runs end alike. -/
structure Ended (Idle : σ → τ → Prop) (ended ended' : Except Failure CoreAddress × Bytes) (s : σ)
    (t : τ) : Prop where
  outcome : ended.1 = ended'.1
  capacity : ended'.2.length = ended.2.length
  idle : Idle s t

include sim

variable {buffer buffer' : Bytes} (capacity : buffer'.length = buffer.length)
include capacity

theorem Simulation.start (endpoint : Endpoint) (thingName : String) :
    Matches Idle (Begun Idle Busy buffer.length)
      (Discovery.start (m := StateM σ) endpoint thingName buffer)
      (Discovery.start (m := StateM τ) endpoint thingName buffer') := by
  obtain ⟨outcome, written, wrote⟩ : ∃ outcome written,
      Request.write buffer thingName = (outcome, written) := ⟨_, _, rfl⟩
  obtain ⟨outcome', written', wrote'⟩ : ∃ outcome written,
      Request.write buffer' thingName = (outcome, written) := ⟨_, _, rfl⟩
  have size := Request.length_of_write wrote
  have size' := (Request.length_of_write wrote').trans capacity
  obtain rfl : outcome' = outcome := by
    simpa only [wrote, wrote'] using @Request.write_of_length buffer thingName buffer' capacity
  unfold Discovery.start
  rw [wrote, wrote']
  cases outcome' with
  | error failure => exact matches_pure fun _ _ idle => .stopped idle size size'
  | ok length =>
    dsimp only
    rw [(Request.take_of_write wrote).1, (Request.take_of_write wrote').1]
    refine (sim.connect endpoint).bind fun answer answer' => ?_
    intro s t dialled
    cases dialled with
    | down idle =>
      refine (sim.idle_record _).bind_same (fun _ => ?_) s t idle
      exact matches_pure fun _ _ idle => .stopped idle size size'
    | @up c c' _ _ busy =>
      refine (sim.sendOver (Request.bytes thingName)).bind_same (fun sent => ?_) s t busy
      cases sent with
      | error fault =>
        exact sim.close.bind fun link link' =>
          matches_pure fun _ _ closed => .stopped closed.2.2 size size'
      | ok _ =>
        exact (sim.busy_record c c' _).bind_same fun _ =>
          matches_pure fun _ _ busy => .sent busy size size'

/-- A whole run returns the same, and leaves both networks without a connection. -/
theorem Simulation.run (request : DiscoveryRequest) :
    Matches Idle (Ended Idle) (Discovery.run (m := StateM σ) request buffer)
      (Discovery.run (m := StateM τ) request buffer') := by
  unfold Discovery.run
  refine (sim.start capacity request.endpoint request.thingName).bind fun begun begun' => ?_
  intro s t started
  cases started with
  | stopped idle size size' => exact ⟨rfl, size'.trans size.symm, idle⟩
  | @sent c c' written written' _ _ busy size size' =>
    refine (sim.readHead c c').bind (fun read read' => ?_) s t busy
    intro s t scanned
    cases scanned with
    | closed idle => exact ⟨rfl, size'.trans size.symm, idle⟩
    | kept busy =>
      refine (sim.receiveDocument (size'.trans size.symm) _).bind
        (fun streamed streamed' => ?_) s t busy
      intro s t finished
      cases finished with
      | failed alike idle =>
        obtain ⟨sizes, -⟩ := alike
        exact ⟨rfl, sizes, idle⟩
      | done alike idle =>
        obtain ⟨sizes, both⟩ := alike
        refine (matches_pure (P := Idle) (Q := fun _ _ => Idle) fun _ _ idle => idle).bind
          (fun _ _ => ?_) s t idle
        refine (sim.idle_record _).bind_same fun _ => ?_
        dsimp only
        rw [both]
        refine (sim.interpret _ request.selection).bind_same fun meant => ?_
        cases meant with
        | error failure => exact matches_pure fun _ _ idle => ⟨rfl, sizes, idle⟩
        | ok core =>
          exact (sim.idle_record _).bind_same fun _ =>
            matches_pure fun _ _ idle => ⟨rfl, sizes, idle⟩

end Run
end CoreLocator.Network
