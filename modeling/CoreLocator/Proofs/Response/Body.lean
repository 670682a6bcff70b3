import CoreLocator.Proofs.Network.Scripted
import CoreLocator.Response.Body

/-! Streaming a body from a scripted connection. One lemma for each way in which a read can end,
and from these the outcome for every grouping of the peer's bytes into chunks. -/
namespace CoreLocator.Response
open Network Network.Script

/-- The reception as one read leaves it. -/
def Progress.next {κ : Type} {r : Reception κ} : Progress r → Reception κ
  | .incomplete next _ => next
  | .complete next => next
  | .failed _ next => next

variable {script after : Script} {c : Handle} {buffer data more : Bytes}
  {received documentSize : Nat} {chunks front later : List Bytes} {failAtEnd : Bool}

theorem take_overwrite (inside : received ≤ buffer.length) :
    (overwrite buffer received data).take received = buffer.take received := by
  rw [overwrite, List.append_assoc, List.take_left' (List.length_take_of_le inside)]

theorem take_overwrite_add (inside : received ≤ buffer.length) :
    (overwrite buffer received data).take (received + data.length) =
      buffer.take received ++ data := by
  have front : (buffer.take received).length = received := List.length_take_of_le inside
  rw [overwrite, List.take_left' (by rw [List.length_append, front])]

theorem overwrite_overwrite (inside : received ≤ buffer.length) :
    overwrite (overwrite buffer received data) (received + data.length) more =
      overwrite buffer received (data ++ more) := by
  have front : (buffer.take received).length = received := List.length_take_of_le inside
  have behind : (overwrite buffer received data).drop (received + data.length + more.length) =
      buffer.drop (received + (data ++ more).length) := by
    rw [overwrite, ← List.drop_drop, List.drop_left' (by rw [List.length_append, front]),
      List.drop_drop, List.length_append, Nat.add_assoc]
  rw [overwrite, take_overwrite_add inside, behind, overwrite]
  simp only [List.append_assoc]

section Reads
variable (documentSize) {fits : data.length ≤ buffer.length - received}
  (answer : script.receive c (buffer.length - received) = (.ok ⟨data, fits⟩, after))
  (arrived : data ≠ []) (room : received < buffer.length)
include answer arrived room

theorem pull_incomplete (short : received + data.length + 1 < documentSize) :
    ∃ less record, Reception.pull (m := StateM Script) ⟨.ofConnection c, buffer, received⟩
        documentSize script =
      (.incomplete ⟨.ofConnection c, overwrite buffer received data, received + data.length⟩ less,
        after.note record) := by
  obtain ⟨b, data, rfl⟩ := List.exists_cons_of_ne_nil arrived
  unfold Reception.pull
  rw [dif_neg (by simp only [Reception.capacity]; omega), bind_of_eq answer]
  dsimp only
  rw [if_neg (by omega), if_pos (by omega)]
  exact ⟨_, _, rfl⟩

theorem pull_complete (reached : received + data.length + 1 = documentSize)
    (fit : documentSize ≤ buffer.length) :
    ∃ record, Reception.pull (m := StateM Script) ⟨.ofConnection c, buffer, received⟩
        documentSize script =
      (.complete ⟨.ofConnection c, overwrite buffer received (data ++ [0]), documentSize - 1⟩,
        after.note record) := by
  have expected : documentSize - 1 = received + data.length := by omega
  obtain ⟨b, data, rfl⟩ := List.exists_cons_of_ne_nil arrived
  unfold Reception.pull
  rw [dif_neg (by simp only [Reception.capacity]; omega), bind_of_eq answer]
  dsimp only
  rw [if_neg (by omega), if_neg (by omega), if_neg (by simp only [Reception.capacity]; omega),
    expected, overwrite_overwrite (Nat.le_of_lt room)]
  exact ⟨_, rfl⟩

theorem pull_tooLong (long : documentSize ≤ received + data.length) (positive : 0 < documentSize) :
    ∃ next record, Reception.pull (m := StateM Script) ⟨.ofConnection c, buffer, received⟩
        documentSize script =
      (.failed (.malformedResponse .bodyTooLong) next, after.note record) ∧
        next.link = .ofConnection c := by
  obtain ⟨b, data, rfl⟩ := List.exists_cons_of_ne_nil arrived
  unfold Reception.pull
  rw [dif_neg (by simp only [Reception.capacity]; omega), bind_of_eq answer]
  dsimp only
  rw [if_pos (by omega)]
  exact ⟨_, _, rfl, rfl⟩

end Reads

/-- Whatever a read brings, the link is as it was and nothing but reading has happened. A body is
complete only when all of it has arrived. -/
theorem pull_reads (r : Reception Handle) (held : r.link = .ofConnection c) (documentSize : Nat)
    (script : Script) :
    Reads c script (r.pull (m := StateM Script) documentSize script).2 ∧
      (r.pull (m := StateM Script) documentSize script).1.next.link = r.link ∧
      ∀ next, (r.pull (m := StateM Script) documentSize script).1 = .complete next →
        next.received = documentSize - 1 := by
  unfold Reception.pull
  by_cases full : r.capacity ≤ r.received
  · rw [dif_pos full]
    exact ⟨reads_note c script _, rfl, nofun⟩
  rw [dif_neg full]
  obtain ⟨answer, read⟩ : ∃ answer, r.link.receive (m := StateM Script) r.room script =
      (answer, (script.receive c r.room).2) := ⟨_, by rw [held]; rfl⟩
  have reads := reads_receive script c r.room
  rw [bind_of_eq read]
  rcases answer with fault | ⟨_ | ⟨b, data⟩, fits⟩
  · exact ⟨reads, rfl, nofun⟩
  · exact ⟨reads, rfl, nofun⟩
  · dsimp only
    split
    · exact ⟨reads.trans (reads_note c _ _), rfl, nofun⟩
    · split
      · exact ⟨reads.trans (reads_note c _ _), rfl, nofun⟩
      · split
        · exact ⟨reads, rfl, nofun⟩
        · refine ⟨reads.trans (reads_note c _ _), rfl, fun next same => ?_⟩
          obtain rfl := Progress.complete.inj same
          dsimp only
          omega

theorem close_ofConnection (c : Handle) (script : Script) :
    (Link.ofConnection c).close (m := StateM Script) script = (⟨none⟩, script.disconnect c) := rfl

section Fetch
variable {r next : Reception Handle}

theorem fetch_of_incomplete {less : next.room < r.room}
    (pulled : r.pull (m := StateM Script) documentSize script = (.incomplete next less, after)) :
    r.fetch (m := StateM Script) documentSize script = (.incomplete next less, after) := by
  rw [Reception.fetch, bind_of_eq pulled]
  rfl

theorem fetch_of_complete (held : next.link = .ofConnection c)
    (pulled : r.pull (m := StateM Script) documentSize script = (.complete next, after)) :
    r.fetch (m := StateM Script) documentSize script =
      (.complete { next with link := ⟨none⟩ }, after.disconnect c) := by
  rw [Reception.fetch, bind_of_eq pulled]
  dsimp only
  rw [held, bind_of_eq (close_ofConnection c after)]
  rfl

theorem fetch_of_failed {failure : Failure} (held : next.link = .ofConnection c)
    (pulled : r.pull (m := StateM Script) documentSize script = (.failed failure next, after)) :
    r.fetch (m := StateM Script) documentSize script =
      (.failed failure { next with link := ⟨none⟩ }, after.disconnect c) := by
  rw [Reception.fetch, bind_of_eq pulled]
  dsimp only
  rw [held, bind_of_eq (close_ofConnection c after)]
  rfl

theorem finish_of_incomplete {less : next.room < r.room}
    (fetched : r.fetch (m := StateM Script) documentSize script = (.incomplete next less, after)) :
    r.finish (m := StateM Script) documentSize script =
      next.finish (m := StateM Script) documentSize after := by
  rw [Reception.finish, bind_of_eq fetched]

theorem finish_of_complete
    (fetched : r.fetch (m := StateM Script) documentSize script = (.complete next, after)) :
    r.finish (m := StateM Script) documentSize script = ((.ok next.received, next), after) := by
  rw [Reception.finish, bind_of_eq fetched]
  rfl

theorem finish_of_failed {failure : Failure}
    (fetched : r.fetch (m := StateM Script) documentSize script = (.failed failure next, after)) :
    r.finish (m := StateM Script) documentSize script = ((.error failure, next), after) := by
  rw [Reception.finish, bind_of_eq fetched]
  rfl

end Fetch

/-- After one read the link is closed, unless more is expected. -/
theorem fetch_closes (r : Reception Handle) (held : r.link = .ofConnection c)
    (documentSize : Nat) (script : Script) :
    (∃ next less after, r.fetch (m := StateM Script) documentSize script =
        (.incomplete next less, after) ∧ next.link = .ofConnection c ∧ Reads c script after) ∨
    (∃ progress after, r.fetch (m := StateM Script) documentSize script = (progress, after) ∧
        (∀ next less, progress ≠ .incomplete next less) ∧ progress.next.link = ⟨none⟩ ∧
        Closes c script after ∧
        ∀ next, progress = .complete next → next.received = documentSize - 1) := by
  obtain ⟨reads, link, whole⟩ := pull_reads r held documentSize script
  obtain ⟨progress, after, pulled⟩ : ∃ progress after,
      r.pull (m := StateM Script) documentSize script = (progress, after) := ⟨_, _, rfl⟩
  rw [pulled] at reads link whole
  rw [held] at link
  cases progress with
  | incomplete next less =>
    exact .inl ⟨next, less, after, fetch_of_incomplete pulled, link, reads⟩
  | complete next =>
    refine .inr ⟨_, _, fetch_of_complete link pulled, nofun, rfl, ⟨after, reads, rfl⟩, ?_⟩
    intro closed same
    obtain rfl := Progress.complete.inj same
    exact whole next rfl
  | failed failure next =>
    exact .inr ⟨_, _, fetch_of_failed link pulled, nofun, rfl, ⟨after, reads, rfl⟩, nofun⟩

/-- Streaming always ends with the link closed. -/
theorem finish_closes (r : Reception Handle) (held : r.link = .ofConnection c)
    (documentSize : Nat) (script : Script) :
    (r.finish (m := StateM Script) documentSize script).1.2.link = ⟨none⟩ ∧
      Closes c script (r.finish (m := StateM Script) documentSize script).2 ∧
      ∀ length, (r.finish (m := StateM Script) documentSize script).1.1 = .ok length →
        length = documentSize - 1 := by
  induction room : r.room using Nat.strongRecOn generalizing r script with
  | ind room ih =>
    obtain ⟨next, less, after, fetched, link, reads⟩ |
      ⟨progress, after, fetched, ended, link, closes, whole⟩ :=
        fetch_closes r held documentSize script
    · rw [finish_of_incomplete fetched]
      obtain ⟨closed, closes, whole⟩ := ih next.room (room ▸ less) next link after rfl
      exact ⟨closed, reads.closes closes, whole⟩
    · cases progress with
      | incomplete next less => exact absurd rfl (ended next less)
      | complete next =>
        rw [finish_of_complete fetched]
        refine ⟨link, closes, fun length same => ?_⟩
        rw [← whole next rfl, Except.ok.inj same]
      | failed failure next =>
        rw [finish_of_failed fetched]
        exact ⟨link, closes, nofun⟩

/-- So does receiving a document, whose size is looked at first. -/
theorem receiveDocument_closes (c : Handle) (buffer : Bytes) (head : Head) (script : Script) :
    (receiveDocument (m := StateM Script) (.ofConnection c) buffer head script).1.2.link = ⟨none⟩ ∧
      Closes c script
        (receiveDocument (m := StateM Script) (.ofConnection c) buffer head script).2 ∧
      ∀ length, (receiveDocument (m := StateM Script) (.ofConnection c) buffer head script).1.1 =
        .ok length → length = head.documentSize - 1 := by
  unfold receiveDocument
  split
  · rw [bind_of_eq (close_ofConnection c script)]
    exact ⟨rfl, Closes.note ⟨script, .refl c script, rfl⟩ _, nofun⟩
  · exact finish_closes _ rfl _ script

/-- Chunks that end exactly where the body does complete it, whatever is queued behind them. -/
theorem finish_reached (queued : script.Queued c (front ++ later) failAtEnd) (nonempty : front ≠ [])
    (reached : received + front.flatten.length + 1 = documentSize)
    (fit : documentSize ≤ buffer.length) :
    (Reception.finish (m := StateM Script) ⟨.ofConnection c, buffer, received⟩ documentSize
        script).1 =
      (.ok (documentSize - 1),
        ⟨⟨none⟩, overwrite buffer received (front.flatten ++ [0]), documentSize - 1⟩) := by
  induction front generalizing script buffer received with
  | nil => exact absurd rfl nonempty
  | cons chunk front ih =>
    have arrived : chunk ≠ [] := fun empty => queued.solid (by simp [empty])
    rw [List.flatten_cons, List.length_append] at reached
    obtain ⟨after, answer, rest, -⟩ :=
      queued.receive_whole (show chunk.length ≤ buffer.length - received by omega)
    by_cases last : front = []
    · subst last
      simp only [List.flatten_nil, List.length_nil, Nat.add_zero] at reached
      obtain ⟨record, pulled⟩ := pull_complete documentSize answer arrived (by omega) reached fit
      rw [finish_of_complete (fetch_of_complete rfl pulled)]
      simp only [List.flatten_cons, List.flatten_nil, List.append_nil]
    · have more : 0 < front.flatten.length := by
        obtain ⟨next, front, rfl⟩ := List.exists_cons_of_ne_nil last
        have : next ≠ [] := fun empty => rest.solid (by simp [empty])
        have := List.length_pos_iff.mpr this
        rw [List.flatten_cons, List.length_append]
        omega
      obtain ⟨less, record, pulled⟩ :=
        pull_incomplete documentSize answer arrived (by omega) (by omega)
      have size : (overwrite buffer received chunk).length = buffer.length :=
        length_overwrite (by omega)
      rw [finish_of_incomplete (fetch_of_incomplete pulled), ih (rest.note record) last,
        overwrite_overwrite (by omega), List.flatten_cons, List.append_assoc]
      · omega
      · omega

/-- Where no chunk ends exactly at the end of the body, the read that goes past it is noticed. -/
theorem finish_overrun (queued : script.Queued c chunks failAtEnd)
    (unreached : ∀ k, received + (chunks.take k).flatten.length + 1 ≠ documentSize)
    (long : documentSize ≤ received + chunks.flatten.length) (started : received < documentSize)
    (fit : documentSize ≤ buffer.length) :
    (Reception.finish (m := StateM Script) ⟨.ofConnection c, buffer, received⟩ documentSize
        script).1.1 = .error (.malformedResponse .bodyTooLong) := by
  induction chunks generalizing script buffer received with
  | nil =>
    simp only [List.flatten_nil, List.length_nil, Nat.add_zero] at long
    omega
  | cons chunk later ih =>
    have arrived : chunk ≠ [] := fun empty => queued.solid (by simp [empty])
    by_cases whole : chunk.length ≤ buffer.length - received
    · obtain ⟨after, answer, rest, -⟩ := queued.receive_whole whole
      have next : received + chunk.length + 1 ≠ documentSize := by simpa using unreached 1
      by_cases short : received + chunk.length + 1 < documentSize
      · obtain ⟨less, record, pulled⟩ :=
          pull_incomplete documentSize answer arrived (by omega) short
        have size : (overwrite buffer received chunk).length = buffer.length :=
          length_overwrite (by omega)
        rw [finish_of_incomplete (fetch_of_incomplete pulled)]
        refine ih (rest.note record) (fun k => ?_) ?_ (by omega) (by omega)
        · simpa only [List.take_succ_cons, List.flatten_cons, List.length_append,
            Nat.add_assoc] using unreached (k + 1)
        · simpa only [List.flatten_cons, List.length_append, Nat.add_assoc] using long
      · have room : received < buffer.length := by omega
        obtain ⟨next, record, pulled, held⟩ :=
          pull_tooLong documentSize answer arrived room (by omega) (by omega)
        rw [finish_of_failed (fetch_of_failed held pulled)]
    · -- A read that is cut short fills the buffer, which has room for more than the body.
      have room : received < buffer.length := by omega
      obtain ⟨after, answer, -, -⟩ := queued.receive_part (Nat.lt_of_not_le whole)
      have filled : (chunk.take (buffer.length - received)).length = buffer.length - received :=
        List.length_take_of_le (by omega)
      have arrived : chunk.take (buffer.length - received) ≠ [] := by
        rw [← List.length_pos_iff, filled]
        omega
      obtain ⟨next, record, pulled, held⟩ :=
        pull_tooLong documentSize answer arrived room (by rw [filled]; omega) (by omega)
      rw [finish_of_failed (fetch_of_failed held pulled)]

section Document
variable {head : Head}

theorem documentSize_pos (head : Head) : 0 < head.documentSize := by
  simp only [Head.documentSize, Decimal.wordLimit, UInt64.size]
  omega

theorem documentSize_of_lt (small : head.contentLength + 1 < Decimal.wordLimit) :
    head.documentSize = head.contentLength + 1 := by
  simp only [Head.documentSize]
  omega

theorem receiveDocument_of_fits (fits : head.documentSize ≤ buffer.length) (script : Script) :
    receiveDocument (m := StateM Script) (.ofConnection c) buffer head script =
      Reception.finish (m := StateM Script) ⟨.ofConnection c, buffer, 0⟩ head.documentSize
        script := by
  unfold receiveDocument
  rw [if_neg (Nat.not_lt.mpr fits)]

theorem receiveDocument_small (small : ¬ head.documentSize ≤ buffer.length) (script : Script) :
    (receiveDocument (m := StateM Script) (.ofConnection c) buffer head script).1.1 =
      .error (.bufferTooSmall buffer.length head.documentSize) := by
  unfold receiveDocument
  rw [if_pos (Nat.lt_of_not_le small)]
  rfl

theorem receiveDocument_reached (queued : script.Queued c (front ++ later) failAtEnd)
    (nonempty : front ≠ []) (reached : front.flatten.length + 1 = head.documentSize)
    (fits : head.documentSize ≤ buffer.length) :
    (receiveDocument (m := StateM Script) (.ofConnection c) buffer head script).1 =
      (.ok front.flatten.length, ⟨⟨none⟩,
        front.flatten ++ 0 :: buffer.drop (front.flatten.length + 1), front.flatten.length⟩) := by
  have length : head.documentSize - 1 = front.flatten.length := by omega
  rw [receiveDocument_of_fits fits, finish_reached queued nonempty (by omega) fits, length]
  simp [overwrite]

theorem receiveDocument_overrun (queued : script.Queued c chunks failAtEnd)
    (unreached : ¬ ∃ k, (chunks.take k).flatten.length + 1 = head.documentSize)
    (long : head.documentSize ≤ chunks.flatten.length)
    (fits : head.documentSize ≤ buffer.length) :
    (receiveDocument (m := StateM Script) (.ofConnection c) buffer head script).1.1 =
      .error (.malformedResponse .bodyTooLong) := by
  rw [receiveDocument_of_fits fits]
  refine finish_overrun queued (fun k reached => unreached ⟨k, by omega⟩) (by omega)
    (documentSize_pos head) fits

/-- A body longer than announced is refused unless a chunk happens to end where the announced length
does: then the bytes behind it are never read, and the document counts as complete. -/
theorem overlong_body_outcome (buffer : Bytes) (queued : script.Queued c chunks failAtEnd)
    (announced : 1 ≤ head.contentLength) (long : head.contentLength < chunks.flatten.length) :
    let fits := head.documentSize ≤ buffer.length
    let reached := ∃ k, (chunks.take k).flatten.length + 1 = head.documentSize
    let run := receiveDocument (m := StateM Script) (.ofConnection c) buffer head script
    (fits → reached → run.1.1 = .ok (head.documentSize - 1)) ∧
      (fits → ¬ reached → run.1.1 = .error (.malformedResponse .bodyTooLong)) ∧
      (¬ fits → run.1.1 = .error (.bufferTooSmall buffer.length head.documentSize)) ∧
      run.1.2.link.isOpen = false ∧
      (run.2.streams[c.index]?).map Stream.isOpen = some false ∧
      run.2.journal.disconnects = script.journal.disconnects + 1 := by
  intro fits reached run
  obtain ⟨link, closes, -⟩ := receiveDocument_closes c buffer head script
  have taken := closes.takenDown queued.up
  have size : head.documentSize ≤ head.contentLength + 1 := Nat.min_le_left _ _
  refine ⟨?_, ?_, fun small => receiveDocument_small small script, ?_, taken.down, ?_⟩
  · rintro fits ⟨k, reached⟩
    have nonempty : chunks.take k ≠ [] := by
      intro empty
      simp only [empty, List.flatten_nil, List.length_nil, Head.documentSize,
        Decimal.wordLimit, UInt64.size] at reached
      omega
    have queued : script.Queued c (chunks.take k ++ chunks.drop k) failAtEnd := by
      rwa [List.take_append_drop]
    simp only [run, receiveDocument_reached queued nonempty reached fits, Except.ok.injEq]
    omega
  · intro fits unreached
    exact receiveDocument_overrun queued unreached (by omega) fits
  · simp only [run, link, Link.isOpen, Option.isSome_none]
  · simp only [run, taken.journal]

end Document

/-- Two bytes are announced and three are sent, the third one in a chunk of its own. -/
theorem overlong_body_accepted : ¬ ∀ (script : Script) (c : Handle) (chunks : List Bytes)
    (failAtEnd : Bool) (buffer : Bytes) (head : Head), script.Queued c chunks failAtEnd →
    1 ≤ head.contentLength → head.contentLength < chunks.flatten.length →
    ∃ failure, (receiveDocument (m := StateM Script) (.ofConnection c) buffer head script).1.1 =
      .error failure := by
  intro refused
  obtain ⟨failure, refused⟩ := refused
    { streams := [{ chunks := [[0x7B, 0x7D], [0x21]], failAtEnd := false }] } ⟨0⟩
    [[0x7B, 0x7D], [0x21]] false [0, 0, 0, 0] ⟨2⟩ ⟨rfl, by decide⟩ (by decide) (by decide)
  have queued : Script.Queued
      { streams := [{ chunks := [[0x7B, 0x7D], [0x21]], failAtEnd := false }] } ⟨0⟩
      ([[0x7B, 0x7D]] ++ [[0x21]]) false := ⟨rfl, by decide⟩
  rw [receiveDocument_reached queued (by decide) (by decide) (by decide)] at refused
  contradiction

/-- The same bytes with the chunks cut one byte earlier. -/
theorem overlong_body_outcome_cut_earlier :
    (receiveDocument (m := StateM Script) (.ofConnection ⟨0⟩) [0, 0, 0, 0] ⟨2⟩
      { streams := [{ chunks := [[0x7B], [0x7D, 0x21]], failAtEnd := false }] }).1.1 =
      .error (.malformedResponse .bodyTooLong) := by
  have queued : Script.Queued
      { streams := [{ chunks := [[0x7B], [0x7D, 0x21]], failAtEnd := false }] } ⟨0⟩
      [[0x7B], [0x7D, 0x21]] false := ⟨rfl, by decide⟩
  refine (overlong_body_outcome [0, 0, 0, 0] queued (by decide) (by decide)).2.1 (by decide) ?_
  rintro ⟨k, reached⟩
  match k with
  | 0 => exact absurd reached (by decide)
  | 1 => exact absurd reached (by decide)
  | k + 2 =>
    rw [List.take_of_length_le (by simp)] at reached
    exact absurd reached (by decide)

end CoreLocator.Response
