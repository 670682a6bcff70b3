import CoreLocator.Proofs.Response.Body
import CoreLocator.Proofs.Response.Head

/-! What the bytes of a peer come to. The head is a matter of the bytes alone. So is the body, as
long as there are no more of them than announced; if there are more, the chunks count as well, but
never the size of a buffer that is large enough. -/
namespace CoreLocator.Response
open Network Network.Script

/-- How a read fails behind the last byte: with a reset, or because something is missing. -/
def ending (failAtEnd : Bool) (missing : ResponseDefect) : Failure :=
  if failAtEnd then .transport .reset else .malformedResponse missing

/-- What a scan of these bytes yields when it may take `budget` of them, and those it leaves. -/
def HeadScanner.scanBytes (failAtEnd : Bool) (scanner : HeadScanner) :
    (budget : Nat) → Bytes → Except Failure Head × Bytes
  | 0, bytes => (.error (.malformedResponse .headTooLong), bytes)
  | _ + 1, [] =>
    (.error (ending failAtEnd (if scanner.foundField then .headUnfinished else .noLength)), [])
  | budget + 1, b :: bytes =>
    match scanner.push b with
    | (.error defect, _) => (.error (.malformedResponse defect), bytes)
    | (.ok .needMore, scanner) => scanner.scanBytes failAtEnd budget bytes
    | (.ok (.complete head), _) => (.ok head, bytes)

/-- The head of a response that starts with these bytes, and what is left behind it. -/
def headOf (failAtEnd : Bool) (bytes : Bytes) : Except Failure Head × Bytes :=
  HeadScanner.new.scanBytes failAtEnd maxHeadLength bytes

variable {script : Script} {c : Handle} {bytes buffer : Bytes} {chunks : List Bytes}
  {failAtEnd : Bool} {received documentSize : Nat} {head : Head}

section Head

theorem scanHead_unread (scanner : HeadScanner) (budget : Nat)
    (unread : script.Unread c bytes failAtEnd) :
    ∃ after, scanHead (m := StateM Script) (.ofConnection c) scanner budget script =
        ((scanner.scanBytes failAtEnd budget bytes).1, after) ∧
      after.Unread c (scanner.scanBytes failAtEnd budget bytes).2 failAtEnd ∧
      Reads c script after := by
  induction budget generalizing scanner script bytes with
  | zero => exact ⟨script, rfl, unread, .refl c script⟩
  | succ budget ih =>
    cases bytes with
    | nil =>
      obtain ⟨after, answer, queued, reads⟩ := unread.queued_nil.receive_end 1
      refine ⟨after, ?_, ⟨[], queued, rfl⟩, reads⟩
      rw [scanHead, bind_of_eq answer]
      cases failAtEnd <;> rfl
    | cons b bytes =>
      obtain ⟨read, answer, left, one⟩ := unread.receive_one
      rw [scanHead, bind_of_eq answer, HeadScanner.scanBytes]
      dsimp only
      obtain ⟨outcome, next⟩ := scanner.push b
      cases outcome with
      | error defect => exact ⟨read, rfl, left, one⟩
      | ok scan =>
        cases scan with
        | needMore =>
          obtain ⟨after, scanned, left, reads⟩ := ih next left
          exact ⟨after, scanned, left, one.trans reads⟩
        | complete head =>
          obtain ⟨chunks, queued, flat⟩ := left
          exact ⟨_, rfl, ⟨chunks, queued.note _, flat⟩, one.trans (reads_note c read _)⟩

theorem readHead_unread (unread : script.Unread c bytes failAtEnd) :
    ∃ scanned, scanned.Unread c (headOf failAtEnd bytes).2 failAtEnd ∧ Reads c script scanned ∧
      readHead (m := StateM Script) (.ofConnection c) script =
        match (headOf failAtEnd bytes).1 with
        | .ok head => ((.ok head, .ofConnection c), scanned)
        | .error failure => ((.error failure, ⟨none⟩), scanned.disconnect c) := by
  obtain ⟨scanned, same, left, reads⟩ := scanHead_unread .new maxHeadLength unread
  refine ⟨scanned, left, reads, ?_⟩
  rw [readHead, bind_of_eq same, headOf]
  cases (HeadScanner.new.scanBytes failAtEnd maxHeadLength bytes).1 with
  | error failure => rfl
  | ok head => rfl

theorem documentSize_of_headOf (found : (headOf failAtEnd bytes).1 = .ok head) :
    1 ≤ head.contentLength ∧ head.documentSize = head.contentLength + 1 := by
  -- Some connection delivers these bytes, and what is read from that one has been checked.
  have unread := unread_of_respond {} ⟨"", 0, none⟩ [bytes] failAtEnd
  rw [List.flatten_singleton] at unread
  obtain ⟨scanned, -, -, read⟩ := readHead_unread unread
  rw [found] at read
  obtain ⟨other, after, same, -, checked⟩ | ⟨failure, after, same, -⟩ := readHead_closes _ _
  · rw [read] at same
    obtain rfl : head = other := Except.ok.inj (Prod.mk.inj (Prod.mk.inj same).1).1
    refine ⟨?_, documentSize_of_lt (ScanState.lt_of_checkedLength checked)⟩
    unfold checkedLength at checked
    split at checked
    · contradiction
    · next positive => exact Nat.one_le_iff_ne_zero.mpr positive
  · rw [read] at same
    have impossible := (Prod.mk.inj (Prod.mk.inj same).1).1
    contradiction

end Head

section Body

theorem pull_ended (documentSize : Nat) (room : received < buffer.length)
    (queued : script.Queued c [] failAtEnd) :
    ∃ after, Reception.pull (m := StateM Script) ⟨.ofConnection c, buffer, received⟩ documentSize
        script =
      (.failed (ending failAtEnd .bodyUnfinished) ⟨.ofConnection c, buffer, received⟩, after) := by
  obtain ⟨after, answer, -, -⟩ := queued.receive_end (buffer.length - received)
  refine ⟨after, ?_⟩
  unfold Reception.pull
  rw [dif_neg (by simp only [Reception.capacity]; omega), bind_of_eq answer]
  cases failAtEnd <;> rfl

theorem finish_short (queued : script.Queued c chunks failAtEnd)
    (short : received + chunks.flatten.length + 1 < documentSize)
    (fit : documentSize ≤ buffer.length) :
    (Reception.finish (m := StateM Script) ⟨.ofConnection c, buffer, received⟩ documentSize
        script).1 =
      (.error (ending failAtEnd .bodyUnfinished), ⟨⟨none⟩,
        overwrite buffer received chunks.flatten, received + chunks.flatten.length⟩) := by
  induction chunks generalizing script buffer received with
  | nil =>
    have room : received < buffer.length := by
      rw [List.flatten_nil, List.length_nil] at short
      omega
    obtain ⟨after, pulled⟩ := pull_ended documentSize room queued
    rw [finish_of_failed (fetch_of_failed rfl pulled)]
    simp [overwrite]
  | cons chunk later ih =>
    have arrived : chunk ≠ [] := fun empty => queued.solid (by simp [empty])
    rw [List.flatten_cons, List.length_append] at short
    obtain ⟨after, answer, rest, -⟩ :=
      queued.receive_whole (show chunk.length ≤ buffer.length - received by omega)
    obtain ⟨less, record, pulled⟩ :=
      pull_incomplete documentSize answer arrived (by omega) (by omega)
    have size : (overwrite buffer received chunk).length = buffer.length :=
      length_overwrite (by omega)
    rw [finish_of_incomplete (fetch_of_incomplete pulled), ih (rest.note record) (by omega)
      (by omega), overwrite_overwrite (by omega), List.flatten_cons, List.length_append,
      Nat.add_assoc]

theorem receiveDocument_refused (small : buffer.length < head.documentSize) (script : Script) :
    (receiveDocument (m := StateM Script) (.ofConnection c) buffer head script).1 =
      (.error (.bufferTooSmall buffer.length head.documentSize), ⟨⟨none⟩, buffer, 0⟩) := by
  unfold receiveDocument
  rw [if_pos small]
  rfl

theorem receiveDocument_within (unread : script.Unread c bytes failAtEnd)
    (positive : 1 ≤ head.contentLength) (size : head.documentSize = head.contentLength + 1)
    (within : bytes.length ≤ head.contentLength) (fits : head.documentSize ≤ buffer.length) :
    (receiveDocument (m := StateM Script) (.ofConnection c) buffer head script).1 =
      if bytes.length = head.contentLength then
        (.ok bytes.length, ⟨⟨none⟩, bytes ++ 0 :: buffer.drop (bytes.length + 1), bytes.length⟩)
      else
        (.error (ending failAtEnd .bodyUnfinished),
          ⟨⟨none⟩, overwrite buffer 0 bytes, bytes.length⟩) := by
  obtain ⟨chunks, queued, rfl⟩ := unread
  split
  · next whole =>
    have nonempty : chunks ≠ [] := by
      rintro rfl
      rw [List.flatten_nil, List.length_nil] at whole
      omega
    rw [← List.append_nil chunks] at queued
    exact receiveDocument_reached queued nonempty (by omega) fits
  · next unfinished =>
    rw [receiveDocument_of_fits fits, finish_short queued (by omega) fits, Nat.zero_add]

/-- Then the bytes settle how it ends, and what it leaves in the buffer. -/
theorem receiveDocument_of_bytes (failAtEnd : Bool) (buffer : Bytes)
    (positive : 1 ≤ head.contentLength) (size : head.documentSize = head.contentLength + 1)
    (within : bytes.length ≤ head.contentLength) :
    ∃ outcome reception, reception.link = ⟨none⟩ ∧
      ∀ (script : Script) (c : Handle), script.Unread c bytes failAtEnd →
        (receiveDocument (m := StateM Script) (.ofConnection c) buffer head script).1 =
          (outcome, reception) := by
  by_cases small : buffer.length < head.documentSize
  · exact ⟨_, _, rfl, fun script c _ => receiveDocument_refused small script⟩
  have fits : head.documentSize ≤ buffer.length := Nat.le_of_not_lt small
  by_cases whole : bytes.length = head.contentLength
  · refine ⟨.ok bytes.length,
      ⟨⟨none⟩, bytes ++ 0 :: buffer.drop (bytes.length + 1), bytes.length⟩, rfl, ?_⟩
    intro script c unread
    rw [receiveDocument_within unread positive size within fits, if_pos whole]
  · refine ⟨.error (ending failAtEnd .bodyUnfinished),
      ⟨⟨none⟩, overwrite buffer 0 bytes, bytes.length⟩, rfl, ?_⟩
    intro script c unread
    rw [receiveDocument_within unread positive size within fits, if_neg whole]

theorem receiveDocument_cut (queued : script.Queued c chunks failAtEnd)
    (positive : 1 ≤ head.contentLength) (size : head.documentSize = head.contentLength + 1)
    {k : Nat} (cut : (chunks.take k).flatten.length = head.contentLength)
    (fits : head.documentSize ≤ buffer.length) :
    (receiveDocument (m := StateM Script) (.ofConnection c) buffer head script).1 =
      (.ok head.contentLength, ⟨⟨none⟩,
        (chunks.take k).flatten ++ 0 :: buffer.drop (head.contentLength + 1),
        head.contentLength⟩) := by
  have nonempty : chunks.take k ≠ [] := by
    intro empty
    rw [empty, List.flatten_nil, List.length_nil] at cut
    omega
  rw [← List.take_append_drop k chunks] at queued
  rw [receiveDocument_reached queued nonempty (by omega) fits, cut]

/-- Where no first chunks have that length, there are too many bytes or too few. -/
theorem receiveDocument_uncut (queued : script.Queued c chunks failAtEnd)
    (size : head.documentSize = head.contentLength + 1)
    (uncut : ¬ ∃ k, (chunks.take k).flatten.length = head.contentLength)
    (fits : head.documentSize ≤ buffer.length) :
    chunks.flatten.length ≠ head.contentLength ∧
      (receiveDocument (m := StateM Script) (.ofConnection c) buffer head script).1.1 =
        .error (if head.contentLength < chunks.flatten.length then .malformedResponse .bodyTooLong
          else ending failAtEnd .bodyUnfinished) := by
  have other : chunks.flatten.length ≠ head.contentLength := fun same =>
    uncut ⟨chunks.length, by rw [List.take_length, same]⟩
  refine ⟨other, ?_⟩
  split
  · exact receiveDocument_overrun queued (fun ⟨k, same⟩ => uncut ⟨k, by omega⟩) (by omega) fits
  · rw [receiveDocument_of_fits fits, finish_short queued (by omega) fits]

theorem receiveDocument_outcome (queued : script.Queued c chunks failAtEnd)
    (positive : 1 ≤ head.contentLength) (size : head.documentSize = head.contentLength + 1) :
    ∃ outcome : Except Failure Bytes,
      (∀ capacity required, outcome ≠ .error (.bufferTooSmall capacity required)) ∧
      ∀ buffer : Bytes, head.documentSize ≤ buffer.length →
        let ended := receiveDocument (m := StateM Script) (.ofConnection c) buffer head script
        ended.1.1 = outcome.map List.length ∧
          ∀ document, outcome = .ok document →
            ended.1.2.buffer.take document.length = document := by
  by_cases cut : ∃ k, (chunks.take k).flatten.length = head.contentLength
  · obtain ⟨k, cut⟩ := cut
    refine ⟨.ok (chunks.take k).flatten, nofun, fun buffer fits => ?_⟩
    dsimp only
    rw [receiveDocument_cut queued positive size cut fits]
    refine ⟨congrArg Except.ok cut.symm, fun document same => ?_⟩
    obtain rfl := Except.ok.inj same
    exact List.take_left
  · refine ⟨.error _, ?_, fun buffer fits =>
      ⟨(receiveDocument_uncut queued size cut fits).2, nofun⟩⟩
    intro capacity required
    split
    · nofun
    · cases failAtEnd <;> nofun

end Body
end CoreLocator.Response
