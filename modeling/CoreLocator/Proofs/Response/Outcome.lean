import CoreLocator.Proofs.Discovery.Simulation
import CoreLocator.Proofs.Network.Watched
import CoreLocator.Proofs.Response.Delivery
import CoreLocator.Proofs.Response.Fetch

/-! How receiving a document ends, for every grouping of the peer's bytes, and how many reads it
takes. Each read but the last brings at least one byte of the body, so there are never more reads
than the body has bytes. -/
namespace CoreLocator.Response
open Network Network.Script

section Reads
variable {σ κ : Type} [Network (StateM σ) κ] [Log (StateM σ)]

theorem calls_noted (records : List Log.Record) (watched : Watched σ) :
    (noted records watched).calls = watched.calls := by
  induction records generalizing watched with
  | nil => rfl
  | cons record records ih => exact ih _

omit [Log (StateM σ)] in
theorem readCount_close (link : Link κ) (watched : Watched σ) :
    readCount (link.close (m := StateM (Watched σ)) watched).2.calls = readCount watched.calls := by
  obtain ⟨_ | c⟩ := link
  · rfl
  · exact readCount_append _ _ _

omit [Log (StateM σ)] in
theorem readCount_asked (r : Reception κ) (watched : Watched σ) :
    readCount (r.asked watched).calls ≤ readCount watched.calls + 1 := by
  obtain ⟨⟨_ | c⟩, buffer, received⟩ := r
  · unfold Reception.asked
    split <;> exact Nat.le_succ _
  · unfold Reception.asked
    split
    · exact Nat.le_succ _
    · exact Nat.le_of_eq (readCount_append _ _ _)

theorem readCount_fetch (r : Reception κ) (documentSize : Nat) (watched : Watched σ) :
    readCount (r.fetch (m := StateM (Watched σ)) documentSize watched).2.calls ≤
      readCount watched.calls + 1 := by
  obtain ⟨progress, after, pulled⟩ : ∃ progress after,
      r.pull (m := StateM (Watched σ)) documentSize watched = (progress, after) := ⟨_, _, rfl⟩
  obtain ⟨-, records, same⟩ := pull_arrived r documentSize watched
  obtain ⟨-, -, -, state⟩ := fetch_of_pull pulled
  rw [pulled] at same
  dsimp only at same
  have asked : readCount after.calls ≤ readCount watched.calls + 1 := by
    rw [same, calls_noted]
    exact readCount_asked r watched
  rw [state]
  split
  · exact asked
  · rw [readCount_close]
    exact asked

/-- A read after which more is expected has brought something. -/
theorem received_of_incomplete {r next : Reception κ} {documentSize : Nat} {s after : σ}
    {less : next.room < r.room}
    (fetched : r.fetch (m := StateM σ) documentSize s = (.incomplete next less, after)) :
    r.received < next.received ∧ next.received < documentSize - 1 := by
  obtain ⟨progress, between, pulled⟩ : ∃ progress after,
      r.pull (m := StateM σ) documentSize s = (progress, after) := ⟨_, _, rfl⟩
  have arrived := (pull_arrived r documentSize s).1
  obtain ⟨incomplete, -, ended, -⟩ := fetch_of_pull pulled
  rw [pulled] at arrived
  rw [fetched] at incomplete ended
  have received : next.received = progress.next.received :=
    (congrArg Reception.received ended).trans rfl
  rw [received]
  generalize r.arrival s = data at arrived
  cases arrived with
  | more less brought _ short _ =>
    have grown := List.length_pos_iff.mpr brought
    exact ⟨Nat.lt_add_of_pos_right grown, short⟩
  | _ => contradiction

/-- There are no more reads than bytes that are still missing. -/
theorem readCount_finish (r : Reception κ) (documentSize : Nat) (watched : Watched σ)
    (started : r.received < documentSize - 1) :
    readCount (r.finish (m := StateM (Watched σ)) documentSize watched).2.calls ≤
      readCount watched.calls + (documentSize - 1 - r.received) := by
  induction room : r.room using Nat.strongRecOn generalizing r watched with
  | ind room ih =>
    have one := readCount_fetch r documentSize watched
    obtain ⟨progress, after, fetched⟩ : ∃ progress after,
        r.fetch (m := StateM (Watched σ)) documentSize watched = (progress, after) := ⟨_, _, rfl⟩
    rw [fetched] at one
    rw [Reception.finish, bind_of_eq fetched]
    cases progress with
    | incomplete next less =>
      obtain ⟨grown, short⟩ := received_of_incomplete fetched
      have rest := ih next.room (room ▸ less) next after short rfl
      dsimp only at one ⊢
      omega
    | complete next =>
      change readCount after.calls ≤ _
      dsimp only at one
      omega
    | failed failure next =>
      change readCount after.calls ≤ _
      dsimp only at one
      omega

end Reads

section Document
variable {script : Script} {c : Handle} {chunks : List Bytes} {failAtEnd : Bool} {n : Nat}
  {buffer : Bytes}

theorem length_flatten_take_le (chunks : List Bytes) (k : Nat) :
    (chunks.take k).flatten.length ≤ chunks.flatten.length := by
  have parted := congrArg (·.flatten.length) (List.take_append_drop k chunks)
  simp only [List.flatten_append, List.length_append] at parted
  omega

theorem ending_ne_tooLong (failAtEnd : Bool) :
    ending failAtEnd .bodyUnfinished ≠ .malformedResponse .bodyTooLong := by
  cases failAtEnd <;> nofun

theorem ending_ne_tooSmall (failAtEnd : Bool) {capacity required : Nat} :
    ending failAtEnd .bodyUnfinished ≠ .bufferTooSmall capacity required := by
  cases failAtEnd <;> nofun

theorem receiveDocument_cases (queued : script.Queued c chunks failAtEnd) (announced : 1 ≤ n)
    (size : (⟨n⟩ : Head).documentSize = n + 1) (fits : n + 1 ≤ buffer.length) :
    let outcome := (receiveDocument (m := StateM Script) (.ofConnection c) buffer ⟨n⟩ script).1.1
    let reached := ∃ k, (chunks.take k).flatten.length = n
    (reached ∧ outcome = .ok n) ∨
      (¬ reached ∧ n < chunks.flatten.length ∧
        outcome = .error (.malformedResponse .bodyTooLong)) ∨
      (¬ reached ∧ chunks.flatten.length < n ∧
        outcome = .error (ending failAtEnd .bodyUnfinished)) := by
  intro outcome reached
  by_cases whole : reached
  · obtain ⟨k, same⟩ := whole
    have ended := receiveDocument_cut queued announced size same (size ▸ fits)
    exact .inl ⟨⟨k, same⟩, congrArg Prod.fst ended⟩
  · obtain ⟨other, ended⟩ := receiveDocument_uncut queued size whole (size ▸ fits)
    by_cases long : n < chunks.flatten.length
    · rw [if_pos long] at ended
      exact .inr (.inl ⟨whole, long, ended⟩)
    · rw [if_neg long] at ended
      exact .inr (.inr ⟨whole, Nat.lt_of_le_of_ne (Nat.le_of_not_lt long) other, ended⟩)

/-- Watching the calls shows how often was read, and changes nothing else. -/
theorem receiveDocument_watched (c : Handle) (buffer : Bytes) (head : Head) (script : Script) :
    let run := receiveDocument (m := StateM Script) (.ofConnection c) buffer head script
    let watched := receiveDocument (m := StateM (Watched Script)) (.ofConnection c) buffer head
      { state := script }
    watched.1.1 = run.1.1 ∧ watched.2.state = run.2 := by
  have alike := watching_simulation.receiveDocument (c := c) (Eq.refl buffer.length) head
    { state := script } script ⟨rfl, rfl⟩
  intro run watched
  change Finished _ watched.1 run.1 watched.2 run.2 at alike
  obtain ⟨ended, after⟩ := run
  obtain ⟨ended', after'⟩ := watched
  cases alike with
  | done alike same => exact ⟨rfl, same⟩
  | failed alike same => exact ⟨rfl, same⟩

theorem readCount_receiveDocument_small {head : Head} (small : buffer.length < head.documentSize)
    (c : Handle) (watched : Watched Script) :
    readCount (receiveDocument (m := StateM (Watched Script)) (.ofConnection c) buffer head
      watched).2.calls = readCount watched.calls := by
  unfold receiveDocument
  rw [if_pos small]
  exact readCount_close (.ofConnection c) watched

theorem readCount_receiveDocument {head : Head} (announced : 1 ≤ head.contentLength)
    (buffer : Bytes) (c : Handle) (watched : Watched Script) :
    readCount (receiveDocument (m := StateM (Watched Script)) (.ofConnection c) buffer head
      watched).2.calls ≤ readCount watched.calls + head.contentLength := by
  by_cases small : buffer.length < head.documentSize
  · rw [readCount_receiveDocument_small small]
    exact Nat.le_add_right _ _
  · unfold receiveDocument
    rw [if_neg small]
    have size : 1 < head.documentSize ∧ head.documentSize ≤ head.contentLength + 1 := by
      simp only [Head.documentSize, Decimal.wordLimit, UInt64.size]
      omega
    have bound := readCount_finish ⟨.ofConnection c, buffer, 0⟩ head.documentSize watched
      (Nat.lt_sub_of_add_lt size.1)
    dsimp only at bound
    omega

/-- How receiving a document of `n` bytes ends. No buffer has as many bytes as the highest number of
a word, so a length at that limit is refused for want of room. -/
theorem receiveDocument_classified (queued : script.Queued c chunks failAtEnd) (announced : 1 ≤ n)
    (addressable : buffer.length + 1 < Decimal.wordLimit) :
    let run := receiveDocument (m := StateM Script) (.ofConnection c) buffer ⟨n⟩ script
    let watched := receiveDocument (m := StateM (Watched Script)) (.ofConnection c) buffer ⟨n⟩
      { state := script }
    let reached := ∃ k, (chunks.take k).flatten.length = n
    (buffer.length < n + 1 →
      run.1.1 = .error (.bufferTooSmall buffer.length (min (n + 1) (Decimal.wordLimit - 1))) ∧
        run.1.2.buffer = buffer ∧ readCount watched.2.calls = 0) ∧
      (n + 1 ≤ buffer.length →
        (run.1.1 = .ok n ↔ reached) ∧
        (run.1.1 = .error (.malformedResponse .bodyTooLong) ↔
          n < chunks.flatten.length ∧ ¬ reached) ∧
        (run.1.1 = .error (ending failAtEnd .bodyUnfinished) ↔ chunks.flatten.length < n) ∧
        ∀ capacity required, run.1.1 ≠ .error (.bufferTooSmall capacity required)) ∧
      (watched.1.1 = run.1.1 ∧ watched.2.state = run.2 ∧ readCount watched.2.calls ≤ n) ∧
      run.1.2.link.isOpen = false ∧
      (run.2.streams[c.index]?).map Stream.isOpen = some false ∧
      run.2.journal.disconnects = script.journal.disconnects + 1 ∧
      ResponseDefect.bodyTooLong.message = "body longer than content-length" ∧
      ResponseDefect.bodyUnfinished.message = "stream ended before end of body" := by
  intro run watched reached
  obtain ⟨link, closes, -⟩ := receiveDocument_closes c buffer ⟨n⟩ script
  have taken := closes.takenDown queued.up
  obtain ⟨same, state⟩ := receiveDocument_watched c buffer ⟨n⟩ script
  refine ⟨fun small => ?_, fun fits => ?_, ⟨same, state, ?_⟩, ?_, taken.down, ?_, rfl, rfl⟩
  · have short : buffer.length < (⟨n⟩ : Head).documentSize := by
      simp only [Head.documentSize]
      omega
    have refused := receiveDocument_refused (c := c) short script
    exact ⟨congrArg Prod.fst refused, congrArg (fun ended => ended.2.buffer) refused,
      readCount_receiveDocument_small short c { state := script }⟩
  · have size : (⟨n⟩ : Head).documentSize = n + 1 :=
      documentSize_of_lt (Nat.lt_of_le_of_lt fits (Nat.lt_of_succ_lt addressable))
    obtain ⟨whole, ended⟩ | ⟨unreached, long, ended⟩ | ⟨unreached, short, ended⟩ :=
      receiveDocument_cases queued announced size fits
    · have within : n ≤ chunks.flatten.length := by
        obtain ⟨k, same⟩ := whole
        rw [← same]
        exact length_flatten_take_le chunks k
      rw [show run.1.1 = _ from ended]
      exact ⟨iff_of_true rfl whole, iff_of_false (by simp) fun long => long.2 whole,
        iff_of_false (by simp) (Nat.not_lt.mpr within), by simp⟩
    · rw [show run.1.1 = _ from ended]
      refine ⟨iff_of_false (by simp) unreached, iff_of_true rfl ⟨long, unreached⟩,
        iff_of_false (fun same => ?_) (Nat.lt_asymm long), by simp⟩
      exact ending_ne_tooLong failAtEnd (Except.error.inj same).symm
    · rw [show run.1.1 = _ from ended]
      refine ⟨iff_of_false (by simp) unreached, iff_of_false (fun same => ?_) fun long => ?_,
        iff_of_true rfl short, fun capacity required same => ?_⟩
      · exact ending_ne_tooLong failAtEnd (Except.error.inj same)
      · exact Nat.lt_asymm short long.1
      · exact ending_ne_tooSmall failAtEnd (Except.error.inj same)
  · have unread : readCount ({ state := script } : Watched Script).calls = 0 := rfl
    have bound := readCount_receiveDocument announced buffer c { state := script }
    rwa [unread, Nat.zero_add] at bound
  · simp only [run, link, Link.isOpen, Option.isSome_none]
  · simp only [run, taken.journal]

end Document

/-- Three bytes in two chunks and a reset behind them, for four announced lengths. -/
theorem receiveDocument_classified_reset :
    let script : Script := { streams := [{ chunks := [[1], [2, 3]], failAtEnd := true }] }
    let outcome := fun n => (receiveDocument (m := StateM Script) (.ofConnection ⟨0⟩)
      [0, 0, 0, 0, 0] ⟨n⟩ script).1.1
    outcome 2 = .error (.malformedResponse .bodyTooLong) ∧ outcome 3 = .ok 3 ∧
      outcome 4 = .error (.transport .reset) ∧ outcome 5 = .error (.bufferTooSmall 5 6) := by
  intro script outcome
  have queued : script.Queued ⟨0⟩ [[1], [2, 3]] true := ⟨rfl, by decide⟩
  have classified (n : Nat) (announced : 1 ≤ n) :=
    @receiveDocument_classified _ _ _ _ n [0, 0, 0, 0, 0] queued announced (by decide)
  refine ⟨?_, ?_, ?_, ?_⟩
  · refine ((classified 2 (by decide)).2.1 (by decide)).2.1.mpr ⟨by decide, ?_⟩
    rintro ⟨k, reached⟩
    match k with
    | 0 => exact absurd reached (by decide)
    | 1 => exact absurd reached (by decide)
    | k + 2 => exact absurd reached (by rw [List.take_of_length_le (by simp)]; decide)
  · exact ((classified 3 (by decide)).2.1 (by decide)).1.mpr ⟨2, by decide⟩
  · exact ((classified 4 (by decide)).2.1 (by decide)).2.2.1.mpr (by decide)
  · exact ((classified 5 (by decide)).1 (by decide)).1

/-- At the highest number that a word holds, what is said to be required is that number and not the
one behind it. -/
theorem requirement_saturated : ¬ ∀ (script : Script) (c : Handle) (chunks : List Bytes)
    (failAtEnd : Bool) (buffer : Bytes) (n : Nat), script.Queued c chunks failAtEnd → 1 ≤ n →
    n < Decimal.wordLimit → buffer.length < n + 1 →
    (receiveDocument (m := StateM Script) (.ofConnection c) buffer ⟨n⟩ script).1.1 =
      .error (.bufferTooSmall buffer.length (n + 1)) := by
  intro required
  have queued : Script.Queued { streams := [{ chunks := [[0x7B, 0x7D]], failAtEnd := false }] } ⟨0⟩
      [[0x7B, 0x7D]] false := ⟨rfl, by decide⟩
  have claimed := required _ _ _ _ [0, 0, 0, 0] (Decimal.wordLimit - 1) queued (by decide)
    (by decide) (by decide)
  have short : List.length [0, 0, 0, (0 : UInt8)] <
      (⟨Decimal.wordLimit - 1⟩ : Head).documentSize := by decide
  rw [receiveDocument_small (Nat.not_le.mpr short)] at claimed
  have same := (Failure.bufferTooSmall.inj (Except.error.inj claimed)).2
  exact absurd same (by decide)

end CoreLocator.Response
