import CoreLocator.Network.Answering
import CoreLocator.Network.Link
import CoreLocator.Proofs.Network.Scripted

/-! Sending all of some data over a connection that may take it in parts. A network that keeps what
is asked of it tells which calls are made and what each of them is offered. Every byte goes out once
and in its place, up to the first call that fails or takes nothing. -/
namespace CoreLocator.Network

/-- A call of `send`: what is offered, and what the connection says to it. -/
structure Offer where
  data : Bytes
  answer : Except Fault (Accepted data)

namespace Offer

def count (offer : Offer) : Except Fault Nat := offer.answer.map (·.val)

def taken (offer : Offer) : Bytes :=
  match offer.answer with
  | .error _ => []
  | .ok n => offer.data.take n.val

/-- Why no call follows this one: it has failed, or it has taken nothing. -/
def stop? (offer : Offer) : Option Fault :=
  match offer.count with
  | .error fault => some fault
  | .ok 0 => some .nothingAccepted
  | .ok (_ + 1) => none

theorem stop?_eq_some {offer : Offer} {fault : Fault} : offer.stop? = some fault ↔
    offer.count = .error fault ∨ offer.count = .ok 0 ∧ fault = .nothingAccepted := by
  unfold stop?
  obtain fault | _ | n := offer.count <;> simp [eq_comm]

theorem stop?_eq_none {offer : Offer} :
    offer.stop? = none ↔ ∃ n, offer.count = .ok n ∧ 0 < n := by
  unfold stop?
  obtain fault | _ | n := offer.count <;> simp

theorem taken_of_stop? {offer : Offer} {fault : Fault} (stops : offer.stop? = some fault) :
    offer.taken = [] := by
  obtain ⟨data, fault | ⟨_ | n, fits⟩⟩ := offer
  · rfl
  · rfl
  · contradiction

theorem taken_prefix (offer : Offer) : offer.taken <+: offer.data := by
  obtain ⟨data, fault | n⟩ := offer
  · exact List.nil_prefix
  · exact List.take_prefix _ _

theorem taken_ne_nil {offer : Offer} (goesOn : offer.stop? = none) : offer.taken ≠ [] := by
  obtain ⟨data, fault | ⟨_ | n, fits⟩⟩ := offer
  · contradiction
  · contradiction
  · apply List.ne_nil_of_length_pos
    change 0 < (data.take (n + 1)).length
    rw [List.length_take_of_le fits]
    exact Nat.succ_pos n

end Offer

/-- What can be asked of a network. -/
inductive Exchange (κ : Type)
  | connect (endpoint : Endpoint)
  | send (c : κ) (offer : Offer)
  | receive (c : κ) (room : Nat)
  | disconnect (c : κ)

/-- A network that keeps all that is asked of it. -/
structure Recorded (σ κ : Type) where
  state : σ
  exchanges : List (Exchange κ) := []

variable {σ κ α : Type}

def record (exchange : α → Exchange κ) (x : StateM σ α) : StateM (Recorded σ κ) α := fun r =>
  let (answer, state) := x r.state
  (answer, { state, exchanges := r.exchanges ++ [exchange answer] })

instance [Network (StateM σ) κ] : Network (StateM (Recorded σ κ)) κ where
  connect endpoint := record (fun _ => .connect endpoint) (Network.connect (m := StateM σ) endpoint)
  send c data := record (fun answer => .send c ⟨data, answer⟩)
    (Network.send (m := StateM σ) c data)
  receive c room := record (fun _ => .receive c room) (Network.receive (m := StateM σ) c room)
  disconnect c := record (fun _ => .disconnect c) (Network.disconnect (m := StateM σ) c)

/-- Calls that send data one after the other, and what comes of them. Each of them is offered what
those before it have left, and the first that stops is the last. -/
inductive Sends : Bytes → List Offer → Except Fault Unit → Prop
  | done : Sends [] [] (.ok ())
  | stopped {offer : Offer} {fault : Fault} : offer.data ≠ [] → offer.stop? = some fault →
      Sends offer.data [offer] (.error fault)
  | part {offer : Offer} {rest : Bytes} {offers : List Offer} {outcome : Except Fault Unit} :
      offer.stop? = none → offer.taken ++ rest = offer.data → Sends rest offers outcome →
      Sends offer.data (offer :: offers) outcome

namespace Sends
variable {data : Bytes} {offers before later : List Offer} {offer : Offer}
  {outcome : Except Fault Unit}

theorem offered (sends : Sends data offers outcome) (place : offers = before ++ offer :: later) :
    before.flatMap Offer.taken ++ offer.data = data ∧ (later ≠ [] → offer.stop? = none) := by
  induction sends generalizing before with
  | done => simp at place
  | stopped _ _ =>
    rw [List.singleton_eq_append_iff] at place
    obtain ⟨rfl, same⟩ | ⟨-, impossible⟩ := place
    · obtain ⟨rfl, rfl⟩ := List.cons.inj same
      exact ⟨rfl, fun more => absurd rfl more⟩
    · contradiction
  | part goesOn whole _ ih =>
    rw [List.cons_eq_append_iff] at place
    obtain ⟨rfl, same⟩ | ⟨before, rfl, place⟩ := place
    · obtain ⟨rfl, rfl⟩ := List.cons.inj same
      exact ⟨rfl, fun _ => goesOn⟩
    · obtain ⟨left, goesOn⟩ := ih place
      rw [List.flatMap_cons, List.append_assoc, left]
      exact ⟨whole, goesOn⟩

theorem taken_prefix (sends : Sends data offers outcome) :
    offers.flatMap Offer.taken <+: data := by
  induction sends with
  | done => exact List.nil_prefix
  | stopped _ stops =>
    rw [List.flatMap_singleton, Offer.taken_of_stop? stops]
    exact List.nil_prefix
  | part _ whole _ ih =>
    rw [List.flatMap_cons, ← whole]
    exact (List.prefix_append_right_inj _).mpr ih

/-- Each call takes a byte, but for the last one, and for that one a byte is left. -/
theorem length_le (sends : Sends data offers outcome) : offers.length ≤ data.length := by
  induction sends with
  | done => exact Nat.le_refl 0
  | stopped offered _ => exact List.length_pos_iff.mpr offered
  | part goesOn whole _ ih =>
    have positive := List.length_pos_iff.mpr (Offer.taken_ne_nil goesOn)
    rw [← whole, List.length_cons, List.length_append]
    omega

theorem outcome_eq_ok (sends : Sends data offers outcome) :
    outcome = .ok () ↔ offers.flatMap Offer.taken = data := by
  induction sends with
  | done => exact iff_of_true rfl rfl
  | stopped offered stops =>
    rw [List.flatMap_singleton, Offer.taken_of_stop? stops]
    exact iff_of_false nofun offered.symm
  | part _ whole _ ih => rw [ih, List.flatMap_cons, ← whole, List.append_cancel_left_eq]

theorem outcome_eq_error (sends : Sends data offers outcome) {fault : Fault} :
    outcome = .error fault ↔
      ∃ before last, offers = before ++ [last] ∧ last.stop? = some fault := by
  induction sends with
  | done => simp
  | @stopped offer other _ stops =>
    constructor
    · rintro ⟨⟩
      exact ⟨[], offer, rfl, stops⟩
    · rintro ⟨before, last, same, found⟩
      obtain ⟨-, rfl⟩ : before = [] ∧ offer = last := by
        simpa [List.singleton_eq_append_iff, eq_comm] using same
      rw [stops] at found
      exact congrArg Except.error (Option.some.inj found)
  | @part offer rest offers outcome goesOn _ _ ih =>
    rw [ih]
    constructor
    · rintro ⟨before, last, rfl, found⟩
      exact ⟨offer :: before, last, rfl, found⟩
    · rintro ⟨before, last, same, found⟩
      rw [List.cons_eq_append_iff] at same
      obtain ⟨-, alone⟩ | ⟨before, -, rfl⟩ := same
      · obtain ⟨rfl, -⟩ := List.cons.inj alone
        rw [goesOn] at found
        contradiction
      · exact ⟨before, last, rfl, found⟩

end Sends

section Links
variable [Network (StateM σ) κ]

theorem send_recorded {c : κ} {data : Bytes} {s after : σ} {answer : Except Fault (Accepted data)}
    (sent : Network.send (m := StateM σ) c data s = (answer, after)) (past : List (Exchange κ)) :
    Network.send (m := StateM (Recorded σ κ)) c data ⟨s, past⟩ =
      (answer, ⟨after, past ++ [.send c ⟨data, answer⟩]⟩) := by
  change record _ (Network.send (m := StateM σ) c data) _ = _
  rw [record, sent]

section Turns
variable {c : κ} {b : UInt8} {data : Bytes} {s after : σ}
  {answer : Except Fault (Accepted (b :: data))}

/-- One turn of the loop, if it is the last. -/
theorem sendOver_stopped {fault : Fault}
    (sent : Network.send (m := StateM σ) c (b :: data) s = (answer, after))
    (stops : Offer.stop? ⟨b :: data, answer⟩ = some fault) :
    Link.sendOver (m := StateM σ) c (b :: data) s = (.error fault, after) := by
  rw [Link.sendOver, bind_of_eq sent]
  rcases answer with other | ⟨_ | n, fits⟩
  · obtain rfl := Option.some.inj stops
    rfl
  · obtain rfl := Option.some.inj stops
    rfl
  · contradiction

/-- One turn of the loop, if there is another. -/
theorem sendOver_part {rest : Bytes}
    (sent : Network.send (m := StateM σ) c (b :: data) s = (answer, after))
    (goesOn : Offer.stop? ⟨b :: data, answer⟩ = none)
    (whole : Offer.taken ⟨b :: data, answer⟩ ++ rest = b :: data) :
    Link.sendOver (m := StateM σ) c (b :: data) s = Link.sendOver (m := StateM σ) c rest after := by
  rcases answer with fault | ⟨_ | n, fits⟩
  · contradiction
  · contradiction
  · have left : data.drop n = rest :=
      List.append_cancel_left ((List.take_append_drop (n + 1) (b :: data)).trans whole.symm)
    rw [Link.sendOver, bind_of_eq sent, ← left]

end Turns

/-- The loop makes such calls and nothing else, and they come to the same where they are kept. -/
theorem sendOver_sends (c : κ) (data : Bytes) (s : σ) : ∃ offers,
    Sends data offers (Link.sendOver (m := StateM σ) c data s).1 ∧
    ∀ past, Link.sendOver (m := StateM (Recorded σ κ)) c data ⟨s, past⟩ =
      ((Link.sendOver (m := StateM σ) c data s).1,
        ⟨(Link.sendOver (m := StateM σ) c data s).2, past ++ offers.map (.send c)⟩) := by
  -- Each turn leaves less to be sent.
  induction size_eq : data.length using Nat.strongRecOn generalizing data s with
  | ind size ih =>
    cases data with
    | nil =>
      refine ⟨[], ?_, fun past => ?_⟩
      · rw [Link.sendOver]
        exact .done
      · rw [Link.sendOver, Link.sendOver, List.map_nil, List.append_nil]
        rfl
    | cons b data =>
      obtain ⟨answer, after, sent⟩ : ∃ answer after,
          Network.send (m := StateM σ) c (b :: data) s = (answer, after) := ⟨_, _, rfl⟩
      have kept := send_recorded sent
      let offer : Offer := ⟨b :: data, answer⟩
      cases stop : offer.stop? with
      | some fault =>
        refine ⟨[offer], ?_, fun past => ?_⟩
        · rw [sendOver_stopped sent stop]
          exact Sends.stopped (List.cons_ne_nil b data) stop
        · rw [sendOver_stopped sent stop, sendOver_stopped (kept past) stop]
          rfl
      | none =>
        obtain ⟨rest, whole⟩ : offer.taken <+: b :: data := offer.taken_prefix
        have less : rest.length < size := by
          have positive := List.length_pos_iff.mpr (Offer.taken_ne_nil stop)
          rw [← size_eq, ← whole, List.length_append]
          omega
        obtain ⟨offers, sends, same⟩ := ih _ less rest after rfl
        refine ⟨offer :: offers, ?_, fun past => ?_⟩
        · rw [sendOver_part sent stop whole]
          exact Sends.part stop whole sends
        · rw [sendOver_part sent stop whole, sendOver_part (kept past) stop whole, same,
            List.append_assoc]
          rfl

/-- Sending over an open link loses, repeats and reorders nothing. All that is asked of the network
are calls of `send` on the connection of the link, which is open behind them as before, and no more
of them than there are bytes. Each is offered what those before it have left, and none follows one
that has failed or taken nothing. All is well exactly if all bytes have been taken. Otherwise the
fault is that of the last call, or that it has taken nothing. -/
theorem sendAll_delivers {link : Link κ} (isOpen : link.isOpen = true) (data : Bytes) (s : σ) :
    let run := link.sendAll (m := StateM σ) data s
    ∃ (c : κ) (offers : List Offer), link.connection = some c ∧
      (∀ past, link.sendAll (m := StateM (Recorded σ κ)) data ⟨s, past⟩ =
        (run.1, ⟨run.2, past ++ offers.map (.send c)⟩)) ∧
      (∀ before offer later, offers = before ++ offer :: later →
        before.flatMap Offer.taken ++ offer.data = data ∧
          (later ≠ [] → ∃ n, offer.count = .ok n ∧ 0 < n)) ∧
      offers.flatMap Offer.taken <+: data ∧ offers.length ≤ data.length ∧
      (run.1 = .ok () ↔ offers.flatMap Offer.taken = data) ∧
      (∀ fault, run.1 = .error fault ↔ ∃ before last, offers = before ++ [last] ∧
        (last.count = .error fault ∨ last.count = .ok 0 ∧ fault = .nothingAccepted)) ∧
      Fault.nothingAccepted.kind = .writeZero ∧
      Fault.nothingAccepted.message = "connection accepted no bytes" := by
  intro run
  obtain ⟨c, connected⟩ := Option.isSome_iff_exists.mp isOpen
  obtain rfl : link = .ofConnection c := congrArg Link.mk connected
  obtain ⟨offers, sends, same⟩ := sendOver_sends c data s
  refine ⟨c, offers, rfl, same, ?_, sends.taken_prefix, sends.length_le, sends.outcome_eq_ok, ?_,
    rfl, rfl⟩
  · intro before offer later place
    obtain ⟨left, goesOn⟩ := sends.offered place
    exact ⟨left, fun more => Offer.stop?_eq_none.mp (goesOn more)⟩
  · intro fault
    simp only [← Offer.stop?_eq_some]
    exact sends.outcome_eq_error

end Links

def reluctant : Answering := { answers := [.ok 2, .ok 1, .ok 0, .ok 9] }

/-- Three of five bytes go out in two calls, and a third one ends the sending. -/
theorem sendAll_delivers_reluctant : (Link.ofConnection ()).isOpen = true ∧
    ((Link.ofConnection ()).sendAll (m := StateM Answering) [1, 2, 3, 4, 5] reluctant).1 =
      .error .nothingAccepted ∧
    ∃ offers : List Offer, offers.map Offer.data = [[1, 2, 3, 4, 5], [3, 4, 5], [4, 5]] ∧
      offers.flatMap Offer.taken = [1, 2, 3] ∧
      ((Link.ofConnection ()).sendAll (m := StateM (Recorded Answering Unit)) [1, 2, 3, 4, 5]
        ⟨reluctant, []⟩).2.exchanges = offers.map (.send ()) := by
  let before : List Offer :=
    [⟨[1, 2, 3, 4, 5], .ok ⟨2, by decide⟩⟩, ⟨[3, 4, 5], .ok ⟨1, by decide⟩⟩]
  let last : Offer := ⟨[4, 5], .ok ⟨0, by decide⟩⟩
  have kept : ((Link.ofConnection ()).sendAll (m := StateM (Recorded Answering Unit))
      [1, 2, 3, 4, 5] ⟨reluctant, []⟩).2.exchanges = (before ++ [last]).map (.send ()) := by
    with_unfolding_all rfl
  obtain ⟨c, offers, -, runs, -, -, -, -, failed, -⟩ :=
    @sendAll_delivers _ _ _ (.ofConnection ()) rfl [1, 2, 3, 4, 5] reluctant
  have same : offers = before ++ [last] := by
    have distinct (one other : Offer) (alike : Exchange.send () one = .send () other) :
        one = other := (Exchange.send.inj alike).2
    rw [runs] at kept
    exact (List.map_inj_right distinct).mp kept
  have ended := (failed .nothingAccepted).mpr ⟨before, last, same, .inr ⟨rfl, rfl⟩⟩
  exact ⟨rfl, ended, before ++ [last], rfl, rfl, kept⟩

end CoreLocator.Network
