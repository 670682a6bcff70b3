import CoreLocator.Proofs.Response.Body

/-! One read of a body, over any connection at all: what it asks of the connection, and what is left
of the buffer, the count and the link. A connection answers a read with a fault or with as many
bytes as fit, so that is all that is known of it. -/
namespace CoreLocator.Response
open Network

variable {σ κ : Type} [Network (StateM σ) κ] [Log (StateM σ)]

def Progress.isIncomplete {r : Reception κ} : Progress r → Bool
  | .incomplete _ _ => true
  | _ => false

def Progress.isComplete {r : Reception κ} : Progress r → Bool
  | .complete _ => true
  | _ => false

namespace Reception

/-- The bytes that a read brings: none where there is no room for any, or where the read fails. -/
def arrival (r : Reception κ) (s : σ) : Bytes :=
  if r.capacity ≤ r.received then []
  else match (r.link.receive (m := StateM σ) r.room s).1 with
    | .ok data => data.val
    | .error _ => []

/-- The state behind the read, which is made only where there is room, and then of all of it. -/
def asked (r : Reception κ) (s : σ) : σ :=
  if r.capacity ≤ r.received then s else (r.link.receive (m := StateM σ) r.room s).2

/-- The reception with these bytes behind those that it has. -/
def advance (r : Reception κ) (data : Bytes) : Reception κ :=
  { r with buffer := overwrite r.buffer r.received data, received := r.received + data.length }

/-- The reception with a zero in place of the byte at `index`. -/
def terminate (r : Reception κ) (index : Nat) : Reception κ :=
  { r with buffer := overwrite r.buffer index [0] }

end Reception

/-- The state after these records have been made. -/
def noted (records : List Log.Record) (s : σ) : σ :=
  records.foldl (fun s record => (Log.record (m := StateM σ) record s).2) s

theorem getElem?_overwrite {buffer data : Bytes} {index : Nat}
    (inside : index + data.length ≤ buffer.length) (i : Nat) :
    (overwrite buffer index data)[i]? =
      if index ≤ i ∧ i < index + data.length then data[i - index]? else buffer[i]? := by
  have front : (buffer.take index).length = index := List.length_take_of_le (by omega)
  rw [overwrite, List.append_assoc]
  by_cases before : i < index
  · rw [List.getElem?_append_left (by omega), List.getElem?_take_of_lt before, if_neg (by omega)]
  rw [List.getElem?_append_right (by omega), front]
  by_cases within : i < index + data.length
  · rw [List.getElem?_append_left (by omega), if_pos (by omega)]
  · rw [List.getElem?_append_right (by omega), List.getElem?_drop, if_neg (by omega)]
    congr 1
    omega

/-- How a read ends, by the bytes that it brings. -/
inductive Arrived (r : Reception κ) (documentSize : Nat) : Bytes → Progress r → Prop
  | nothing (failure : Failure) : Arrived r documentSize [] (.failed failure r)
  | refused {data : Bytes} (failure : Failure) : data ≠ [] → data.length ≤ r.room →
      Arrived r documentSize data (.failed failure (r.advance data))
  | more {data : Bytes} (less : (r.advance data).room < r.room) : data ≠ [] →
      data.length ≤ r.room → r.received + data.length < documentSize - 1 → r.link.isOpen = true →
      Arrived r documentSize data (.incomplete (r.advance data) less)
  | whole {data : Bytes} : data ≠ [] → data.length ≤ r.room →
      r.received + data.length = documentSize - 1 → documentSize - 1 < r.capacity →
      Arrived r documentSize data (.complete ((r.advance data).terminate (documentSize - 1)))

omit [Log (StateM σ)] in
theorem isOpen_of_receive {link : Link κ} {room : Nat} {s after : σ} {data : Received room}
    (answer : link.receive (m := StateM σ) room s = (.ok data, after)) : link.isOpen = true := by
  obtain ⟨_ | c⟩ := link
  · have impossible := (Prod.mk.inj answer).1
    contradiction
  · rfl

theorem pull_arrived (r : Reception κ) (documentSize : Nat) (s : σ) :
    Arrived r documentSize (r.arrival s) (r.pull (m := StateM σ) documentSize s).1 ∧
      ∃ records, (r.pull (m := StateM σ) documentSize s).2 = noted records (r.asked s) := by
  unfold Reception.pull
  by_cases full : r.capacity ≤ r.received
  · simp only [dif_pos full, Reception.arrival, Reception.asked, if_pos full]
    exact ⟨.nothing _, [_], rfl⟩
  obtain ⟨answer, after, received⟩ : ∃ answer after,
      r.link.receive (m := StateM σ) r.room s = (answer, after) := ⟨_, _, rfl⟩
  simp only [dif_neg full, Reception.arrival, Reception.asked, if_neg full, received]
  rw [bind_of_eq received]
  rcases answer with fault | ⟨_ | ⟨b, data⟩, fits⟩
  · exact ⟨.nothing _, [], rfl⟩
  · exact ⟨.nothing _, [], rfl⟩
  have opened := isOpen_of_receive received
  dsimp only
  split
  · exact ⟨.refused _ (List.cons_ne_nil b data) fits, [_], rfl⟩
  · split
    · next short => exact ⟨.more _ (List.cons_ne_nil b data) fits short opened, [_], rfl⟩
    · split
      · exact ⟨.refused _ (List.cons_ne_nil b data) fits, [], rfl⟩
      · next inside =>
        refine ⟨.whole (List.cons_ne_nil b data) fits ?_ (Nat.lt_of_not_le inside), [_], rfl⟩
        omega

/-- What a read ends on: a fault of the connection, the end or the excess of the body, or a buffer
that has no room for what is expected. -/
inductive ReadFailure (capacity documentSize : Nat) : Failure → Prop
  | transport (fault : Fault) : ReadFailure capacity documentSize (.transport fault)
  | malformed (defect : ResponseDefect) : ReadFailure capacity documentSize
      (.malformedResponse defect)
  | tooSmall : ReadFailure capacity documentSize (.bufferTooSmall capacity documentSize)

theorem failure_of_pull {r next : Reception κ} {documentSize : Nat} {s : σ} {failure : Failure}
    (pulled : (r.pull (m := StateM σ) documentSize s).1 = .failed failure next) :
    ReadFailure r.capacity documentSize failure := by
  unfold Reception.pull at pulled
  split at pulled
  · obtain ⟨rfl, -⟩ := Progress.failed.inj pulled
    exact .tooSmall
  rw [bind_apply] at pulled
  generalize r.link.receive (m := StateM σ) r.room s = answer at pulled
  obtain ⟨fault | ⟨_ | ⟨b, data⟩, fits⟩, after⟩ := answer
  · obtain ⟨rfl, -⟩ := Progress.failed.inj pulled
    exact .transport fault
  · obtain ⟨rfl, -⟩ := Progress.failed.inj pulled
    exact .malformed _
  dsimp only at pulled
  split at pulled
  · obtain ⟨rfl, -⟩ := Progress.failed.inj pulled
    exact .malformed _
  · split at pulled
    · contradiction
    · split at pulled
      · obtain ⟨rfl, -⟩ := Progress.failed.inj pulled
        exact .tooSmall
      · contradiction

omit [Log (StateM σ)] in
theorem close_fst (link : Link κ) (s : σ) : (link.close (m := StateM σ) s).1 = ⟨none⟩ := by
  obtain ⟨_ | c⟩ := link <;> rfl

/-- A read that does not leave more to come closes the link, and changes nothing else. -/
theorem fetch_of_pull {r : Reception κ} {documentSize : Nat} {s after : σ} {progress : Progress r}
    (pulled : r.pull (m := StateM σ) documentSize s = (progress, after)) :
    let fetched := r.fetch (m := StateM σ) documentSize s
    let link := progress.next.link
    fetched.1.isIncomplete = progress.isIncomplete ∧
      fetched.1.isComplete = progress.isComplete ∧
      fetched.1.next =
        { progress.next with link := if progress.isIncomplete then link else ⟨none⟩ } ∧
      fetched.2 =
        if progress.isIncomplete then after else (link.close (m := StateM σ) after).2 := by
  rw [Reception.fetch, bind_of_eq pulled]
  cases progress with
  | incomplete next less => exact ⟨rfl, rfl, rfl, rfl⟩
  | complete next =>
    dsimp only
    rw [bind_apply, close_fst]
    exact ⟨rfl, rfl, rfl, rfl⟩
  | failed failure next =>
    dsimp only
    rw [bind_apply, close_fst]
    exact ⟨rfl, rfl, rfl, rfl⟩

section Effect
variable {r : Reception κ} {documentSize : Nat} {data : Bytes} {progress : Progress r}

theorem inside_of_fits (arrived : data ≠ []) (fits : data.length ≤ r.room) :
    r.received + data.length ≤ r.buffer.length := by
  have := List.length_pos_iff.mpr arrived
  simp only [Reception.room, Reception.capacity] at fits
  omega

theorem capacity_advance (arrived : data ≠ []) (fits : data.length ≤ r.room) :
    (r.advance data).capacity = r.capacity :=
  length_overwrite (inside_of_fits arrived fits)

theorem capacity_terminate {index : Nat} (inside : index < r.capacity) :
    (r.terminate index).capacity = r.capacity :=
  length_overwrite inside

variable (arrived : Arrived r documentSize data progress)
include arrived

theorem Arrived.fits : data.length ≤ r.room := by
  cases arrived with
  | nothing failure => exact Nat.zero_le _
  | refused failure _ fits => exact fits
  | more less _ fits _ _ => exact fits
  | whole _ fits _ _ => exact fits

theorem Arrived.capacity : progress.next.capacity = r.capacity := by
  cases arrived with
  | nothing failure => rfl
  | refused failure brought fits => exact capacity_advance brought fits
  | more less brought fits _ _ => exact capacity_advance brought fits
  | whole brought fits _ inside =>
    have same := capacity_advance brought fits
    exact (capacity_terminate (same ▸ inside)).trans same

theorem Arrived.received : progress.next.received = r.received + data.length := by
  cases arrived <;> rfl

theorem Arrived.link : progress.next.link = r.link := by
  cases arrived <;> rfl

theorem Arrived.unchanged (empty : data = []) : progress.next.buffer = r.buffer := by
  cases arrived with
  | nothing failure => rfl
  | refused failure brought _ => exact absurd empty brought
  | more less brought _ _ _ => exact absurd empty brought
  | whole brought _ _ _ => exact absurd empty brought

theorem Arrived.isOpen (more : progress.isIncomplete = true) : r.link.isOpen = true := by
  cases arrived with
  | more less _ _ _ opened => exact opened
  | _ => contradiction

theorem Arrived.isComplete (complete : progress.isComplete = true) :
    r.received + data.length = documentSize - 1 ∧ 1 ≤ data.length ∧
      documentSize - 1 < r.capacity := by
  cases arrived with
  | whole brought _ reached inside => exact ⟨reached, List.length_pos_iff.mpr brought, inside⟩
  | _ => contradiction

/-- Only the bytes between the old count and the new one change, and where the body is complete the
one behind them too. -/
theorem Arrived.buffer (i : Nat) : progress.next.buffer[i]? =
    if progress.isComplete ∧ i = documentSize - 1 then some 0
    else if r.received ≤ i ∧ i < r.received + data.length then data[i - r.received]?
    else r.buffer[i]? := by
  cases arrived with
  | nothing failure =>
    rw [if_neg (by simp [Progress.isComplete]), if_neg (by simp), Progress.next]
  | refused failure brought fits =>
    rw [if_neg (by simp [Progress.isComplete])]
    exact getElem?_overwrite (inside_of_fits brought fits) i
  | more less brought fits _ _ =>
    rw [if_neg (by simp [Progress.isComplete])]
    exact getElem?_overwrite (inside_of_fits brought fits) i
  | whole brought fits _ inside =>
    have same : (r.advance data).buffer.length = r.capacity := capacity_advance brought fits
    have last : documentSize - 1 + [(0 : UInt8)].length ≤ (r.advance data).buffer.length := by
      rw [same]
      exact inside
    rw [← getElem?_overwrite (inside_of_fits brought fits) i]
    refine (getElem?_overwrite last i).trans ?_
    by_cases here : i = documentSize - 1
    · subst here
      simp [Progress.isComplete]
    · rw [if_neg (by simp only [List.length_singleton]; omega), if_neg (by simp [here])]
      rfl

end Effect

theorem failure_of_fetch {r next : Reception κ} {documentSize : Nat} {s : σ} {failure : Failure}
    (fetched : (r.fetch (m := StateM σ) documentSize s).1 = .failed failure next) :
    ReadFailure r.capacity documentSize failure := by
  obtain ⟨progress, after, pulled⟩ : ∃ progress after,
      r.pull (m := StateM σ) documentSize s = (progress, after) := ⟨_, _, rfl⟩
  rw [Reception.fetch, bind_of_eq pulled] at fetched
  cases progress with
  | incomplete next less => contradiction
  | complete next => contradiction
  | failed failure' next' =>
    obtain ⟨rfl, -⟩ := Progress.failed.inj fetched
    exact failure_of_pull (congrArg Prod.fst pulled)

/-- No read changes the size of the buffer. -/
theorem capacity_fetch (r : Reception κ) (documentSize : Nat) (s : σ) :
    (r.fetch (m := StateM σ) documentSize s).1.next.capacity = r.capacity := by
  obtain ⟨progress, after, pulled⟩ : ∃ progress after,
      r.pull (m := StateM σ) documentSize s = (progress, after) := ⟨_, _, rfl⟩
  have arrived := (pull_arrived r documentSize s).1
  obtain ⟨-, -, ended, -⟩ := fetch_of_pull pulled
  rw [pulled] at arrived
  exact (congrArg Reception.capacity ended).trans arrived.capacity

/-- What one read does, whatever is known of the connection, the buffer and the sizes. -/
theorem fetch_frame (r : Reception κ) (documentSize : Nat) (s : σ) :
    let data := r.arrival s
    let fetched := r.fetch (m := StateM σ) documentSize s
    let next := fetched.1.next
    (next.capacity = r.capacity ∧ data.length ≤ r.room) ∧
      next.received = r.received + data.length ∧
      (r.received ≤ r.capacity → next.received ≤ next.capacity) ∧
      (∀ i, next.buffer[i]? =
        if fetched.1.isComplete ∧ i = documentSize - 1 then some 0
        else if r.received ≤ i ∧ i < next.received then data[i - r.received]?
        else r.buffer[i]?) ∧
      (data = [] → next.buffer = r.buffer ∧ next.received = r.received) ∧
      (fetched.1.isComplete → next.received = documentSize - 1 ∧ 1 ≤ next.received ∧
        documentSize - 1 < next.capacity) ∧
      (next.link.isOpen = true ↔ fetched.1.isIncomplete = true) ∧
      ∃ records, fetched.2 = if fetched.1.isIncomplete then noted records (r.asked s)
        else (r.link.close (m := StateM σ) (noted records (r.asked s))).2 := by
  intro data fetched next
  obtain ⟨progress, after, pulled⟩ : ∃ progress after,
      r.pull (m := StateM σ) documentSize s = (progress, after) := ⟨_, _, rfl⟩
  obtain ⟨arrived, records, same⟩ := pull_arrived r documentSize s
  obtain ⟨incomplete, complete, ended, state⟩ := fetch_of_pull pulled
  rw [pulled] at arrived same
  have received : next.received = r.received + data.length :=
    (congrArg Reception.received ended).trans arrived.received
  have buffer : next.buffer = progress.next.buffer :=
    (congrArg Reception.buffer ended).trans rfl
  have link : next.link = if progress.isIncomplete then r.link else ⟨none⟩ := by
    rw [← arrived.link]
    exact (congrArg Reception.link ended).trans rfl
  have capacity : next.capacity = r.capacity :=
    (congrArg List.length buffer).trans arrived.capacity
  have fits : data.length ≤ r.room := arrived.fits
  refine ⟨⟨capacity, fits⟩, received, fun inside => ?_, fun i => ?_, fun empty => ?_,
    fun whole => ?_, ?_, records, ?_⟩
  · rw [received, capacity]
    simp only [Reception.room] at fits
    omega
  · rw [buffer, received, complete]
    exact arrived.buffer i
  · rw [buffer, received, empty]
    exact ⟨arrived.unchanged empty, rfl⟩
  · obtain ⟨reached, brought, inside⟩ := arrived.isComplete (complete ▸ whole)
    rw [received, capacity]
    exact ⟨reached, Nat.le_add_left_of_le brought, inside⟩
  · rw [incomplete, link]
    cases more : progress.isIncomplete with
    | true => exact iff_of_true (arrived.isOpen more) rfl
    | false => exact iff_of_false Bool.false_ne_true Bool.false_ne_true
  · rw [incomplete, ← same, ← arrived.link]
    exact state

end CoreLocator.Response
