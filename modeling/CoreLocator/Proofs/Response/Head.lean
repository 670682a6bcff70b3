import CoreLocator.Proofs.Decimal
import CoreLocator.Proofs.Network.Scripted
import CoreLocator.Response.Head

/-! Scanning the head of a response. What the matcher, the capture and the window hold is said by
the bytes that went in, one lemma for each byte; so the scan ends at a place that depends on the
bytes alone. -/
namespace CoreLocator.Response
open Network Network.Script

namespace FieldMatcher

variable {m : FieldMatcher} {bytes : Bytes} {b : UInt8}

/-- The stream ends in what is matched of the name, which is never all of it. -/
structure Follows (m : FieldMatcher) (bytes : Bytes) : Prop where
  short : m.matched < m.target.length
  suffix : m.target.take m.matched <:+ bytes

theorem Follows.start (nonempty : m.target ≠ []) (fresh : m.matched = 0) (bytes : Bytes) :
    m.Follows bytes := by
  refine ⟨fresh ▸ List.length_pos_iff.mpr nonempty, ?_⟩
  rw [fresh, List.take_zero]
  exact List.nil_suffix

theorem push_target (m : FieldMatcher) (b : UInt8) : (m.push b).2.target = m.target := by
  unfold push
  split
  · split <;> rfl
  · rfl

theorem suffix_of_next (suffix : m.target.take m.matched <:+ bytes)
    (next : m.target[m.matched]? = some b) :
    m.target.take (m.matched + 1) <:+ bytes ++ [b] := by
  obtain ⟨front, rfl⟩ := suffix
  refine ⟨front, ?_⟩
  rw [List.take_add_one, next, Option.toList_some, List.append_assoc]

theorem Follows.push (follows : m.Follows bytes) (b : UInt8) :
    (m.push b).2.Follows (bytes ++ [b]) := by
  have nonempty : m.target ≠ [] := List.length_pos_iff.mp (Nat.zero_lt_of_lt follows.short)
  unfold FieldMatcher.push
  split
  · next found =>
    split
    · exact Follows.start (m := { m with matched := 0 }) nonempty rfl _
    · next more =>
      exact ⟨Nat.lt_of_le_of_ne follows.short more, suffix_of_next follows.suffix found⟩
  · exact Follows.start (m := { m with matched := 0 }) nonempty rfl _

theorem Follows.suffix_of_hit (follows : m.Follows bytes) (hit : (m.push b).1 = true) :
    m.target <:+ bytes ++ [b] := by
  unfold FieldMatcher.push at hit
  split at hit
  · next found =>
    split at hit
    · next all =>
      have whole := suffix_of_next follows.suffix found
      rwa [all, List.take_length] at whole
    · contradiction
  · contradiction

/-- A byte that the name does not have starts the search over. -/
theorem push_of_not_mem (absent : b ∉ m.target) : m.push b = (false, { m with matched := 0 }) := by
  unfold push
  rw [if_neg fun found => absent (List.mem_of_getElem? found)]

end FieldMatcher

namespace BoundaryWindow

/-- The window over a stream of these bytes. -/
def ofBytes (bytes : Bytes) : BoundaryWindow := ⟨bytes.drop (bytes.length - 4)⟩

theorem push_ofBytes (bytes : Bytes) (b : UInt8) :
    (ofBytes bytes).push b = (decide (Bytes.blankLine <:+ bytes ++ [b]), ofBytes (bytes ++ [b])) := by
  have kept : (bytes.drop (bytes.length - 4) ++ [b]).drop
        ((bytes.drop (bytes.length - 4) ++ [b]).length - 4) =
      (bytes ++ [b]).drop ((bytes ++ [b]).length - 4) := by
    rw [← List.drop_append_of_le_length (Nat.sub_le _ _), List.drop_drop]
    congr 1
    simp only [List.length_append, List.length_drop, List.length_singleton]
    omega
  have ended : ((bytes ++ [b]).drop ((bytes ++ [b]).length - 4) == Bytes.blankLine) =
      decide (Bytes.blankLine <:+ bytes ++ [b]) := by
    rw [Bool.eq_iff_iff, beq_iff_eq, decide_eq_true_iff, List.suffix_iff_eq_drop]
    exact eq_comm
  simp only [push, ofBytes, kept, ended]

end BoundaryWindow

namespace ScanState

/-- These bytes are taken, and after each of them more is needed. -/
inductive Passes : ScanState → Bytes → ScanState → Prop
  | done {state : ScanState} : Passes state [] state
  | byte {state middle after : ScanState} {b : UInt8} {bytes : Bytes} :
      state.push b = (.ok (), middle) → middle.scan = .needMore → Passes middle bytes after →
      Passes state (b :: bytes) after

theorem Passes.append {state middle after : ScanState} {front back : Bytes}
    (first : Passes state front middle) (last : Passes middle back after) :
    Passes state (front ++ back) after := by
  induction first with
  | done => exact last
  | byte pushed more _ ih => exact .byte pushed more (ih last)

/-- Before the field name has occurred the matcher follows the stream. -/
theorem passes_before (before : Bytes) (m : FieldMatcher) (bytes : Bytes)
    (follows : m.Follows bytes)
    (missing : ∀ front, front <+: before → ¬ m.target <:+ bytes ++ front) :
    ∃ m', Passes (field m) before (field m') ∧ m'.target = m.target ∧
      m'.Follows (bytes ++ before) ∧
      ∀ last ∈ before.getLast?, last ∉ m.target → m'.matched = 0 := by
  induction before generalizing m bytes with
  | nil => exact ⟨m, .done, rfl, by simpa using follows, by simp⟩
  | cons b before ih =>
    -- A hit here would make the name the end of what has been read so far.
    have miss : (m.push b).1 = false := by
      rw [← Bool.not_eq_true]
      exact fun hit => missing [b] ⟨before, rfl⟩ (follows.suffix_of_hit hit)
    have same := m.push_target b
    obtain ⟨m', passes, target, follows', reset⟩ := ih (m.push b).2 (bytes ++ [b])
      (follows.push b) fun front inside => by
        rw [same, List.append_assoc]
        exact missing (b :: front) (List.cons_prefix_cons.mpr ⟨rfl, inside⟩)
    have pushed : (field m).push b = (.ok (), field (m.push b).2) := by
      simp only [push]
      split
      · next found => simp [found] at miss
      · next found => rw [found]
    refine ⟨m', .byte pushed rfl passes, target.trans same, by simpa using follows', ?_⟩
    intro last member absent
    cases before with
    | nil =>
      cases passes
      simp only [List.getLast?_singleton, Option.mem_some_iff] at member
      rw [FieldMatcher.push_of_not_mem (member ▸ absent)]
    | cons a before =>
      refine reset last ?_ (same.symm ▸ absent)
      rwa [List.getLast?_cons_cons] at member

theorem passes_name {m : FieldMatcher} (front back : Bytes) (target : m.target = front ++ back)
    (matched : m.matched = front.length) (more : back ≠ []) :
    Passes (field m) back (length [] {}) := by
  induction back generalizing m front with
  | nil => exact absurd rfl more
  | cons b back ih =>
    have next : m.target[m.matched]? = some b := by simp [target, matched]
    cases back with
    | nil =>
      have all : m.matched + 1 = m.target.length := by simp [target, matched]
      refine .byte ?_ rfl .done
      simp only [push, FieldMatcher.push, if_pos next, if_pos all]
    | cons a back =>
      have part : m.matched + 1 ≠ m.target.length := by simp [target, matched]
      have pushed : (field m).push b = (.ok (), field { m with matched := m.matched + 1 }) := by
        simp only [push, FieldMatcher.push, if_pos next, if_neg part]
      have rest : m.target = (front ++ [b]) ++ a :: back := by simp [target]
      exact .byte pushed rfl (ih (front ++ [b]) rest (by simp [matched]) (by simp))

/-- The state when these bytes have come behind the field name and the head goes on. -/
def behind (bytes : Bytes) : ScanState :=
  if bytes.length < captureWidth then length bytes (.ofBytes bytes)
  else boundary (Decimal.leading (bytes.take captureWidth)) (.ofBytes bytes)

section Value
variable {bytes value : Bytes} {b : UInt8} {n : Nat}

theorem eq_of_checkedLength {length : Nat} (valid : checkedLength length = .ok n) :
    n = length := by
  unfold checkedLength at valid
  split at valid
  · contradiction
  · split at valid
    · contradiction
    · exact (Except.ok.inj valid).symm

theorem lt_of_checkedLength {length : Nat} (valid : checkedLength length = .ok n) :
    length + 1 < Decimal.wordLimit := by
  unfold checkedLength at valid
  split at valid
  · contradiction
  · split at valid
    · contradiction
    · next small => exact Nat.lt_of_not_le small

theorem take_captureWidth_append (wide : captureWidth ≤ bytes.length) (back : Bytes) :
    (bytes ++ back).take captureWidth = bytes.take captureWidth :=
  List.take_append_of_le_length wide

/-- The length is read as soon as the capture is full. -/
theorem push_behind (more : ¬ Bytes.blankLine <:+ bytes ++ [b])
    (valid : bytes.length + 1 = captureWidth →
      checkedLength (Decimal.leading ((bytes ++ [b]).take captureWidth)) = .ok n) :
    (behind bytes).push b = (.ok (), behind (bytes ++ [b])) := by
  have grown : (bytes ++ [b]).length = bytes.length + 1 := List.length_append
  by_cases narrow : bytes.length < captureWidth
  · by_cases full : bytes.length + 1 = captureWidth
    · have all : (bytes ++ [b]).take captureWidth = bytes ++ [b] :=
        List.take_of_length_le (by omega)
      have valid := valid full
      have same := eq_of_checkedLength valid
      rw [all] at valid same
      simp only [behind, if_pos narrow, push, BoundaryWindow.push_ofBytes, decide_eq_false more,
        grown, full, Bool.false_or, beq_self_eq_true, valid, if_true, all, same,
        Nat.lt_irrefl, if_false]
      simp
    · have below : bytes.length + 1 < captureWidth := by omega
      simp only [behind, if_pos narrow, push, BoundaryWindow.push_ofBytes, decide_eq_false more,
        grown, if_pos below, Bool.false_or, beq_eq_false_iff_ne.mpr full]
      simp
  · have wide : captureWidth ≤ bytes.length := Nat.le_of_not_lt narrow
    have still : ¬ (bytes ++ [b]).length < captureWidth := by omega
    simp only [behind, if_neg narrow, if_neg still, push, BoundaryWindow.push_ofBytes,
      decide_eq_false more, take_captureWidth_append wide]

theorem push_behind_end (ended : Bytes.blankLine <:+ bytes ++ [b])
    (valid : checkedLength (Decimal.leading ((bytes ++ [b]).take captureWidth)) = .ok n) :
    (behind bytes).push b = (.ok (), done ⟨n⟩) := by
  have grown : (bytes ++ [b]).length = bytes.length + 1 := List.length_append
  by_cases narrow : bytes.length < captureWidth
  · have all : (bytes ++ [b]).take captureWidth = bytes ++ [b] :=
      List.take_of_length_le (by omega)
    rw [all] at valid
    simp only [behind, if_pos narrow, push, BoundaryWindow.push_ofBytes, decide_eq_true ended,
      Bool.true_or, if_true, valid]
  · have wide : captureWidth ≤ bytes.length := Nat.le_of_not_lt narrow
    rw [take_captureWidth_append wide] at valid
    simp only [behind, if_neg narrow, push, BoundaryWindow.push_ofBytes, decide_eq_true ended,
      eq_of_checkedLength valid]

theorem scan_behind (bytes : Bytes) : (behind bytes).scan = .needMore := by
  unfold behind
  split <;> rfl

/-- What fits the capture is too small to be too large. -/
theorem checkedLength_capture (short : bytes.length ≤ captureWidth) :
    checkedLength (Decimal.leading bytes) =
      if Decimal.leading bytes = 0 then .error .lengthUnreadable
      else .ok (Decimal.leading bytes) := by
  have bound := Decimal.leading_lt bytes
  have room : Nat.pow 10 bytes.length ≤ Nat.pow 10 captureWidth :=
    Nat.pow_le_pow_right (by decide) short
  have word : Nat.pow 10 captureWidth < Decimal.wordLimit - 1 := by decide
  unfold checkedLength
  split
  · rfl
  · exact if_neg (by omega)

/-- Without a blank line more is needed, unless the capture is full and holds no length. -/
theorem passes_quiet (front back : Bytes)
    (quiet : ∀ part, part <+: front ++ back → ¬Bytes.blankLine <:+ part)
    (valid : captureWidth ≤ (front ++ back).length →
      Decimal.leading ((front ++ back).take captureWidth) ≠ 0) :
    Passes (behind front) back (behind (front ++ back)) := by
  induction back generalizing front with
  | nil => simpa using Passes.done
  | cons b back ih =>
    have split : front ++ b :: back = (front ++ [b]) ++ back := by simp
    rw [split] at quiet valid ⊢
    have more : ¬Bytes.blankLine <:+ front ++ [b] := quiet _ (List.prefix_append _ _)
    -- The tenth byte fills the capture with the first ten bytes of all that comes.
    have captured : front.length + 1 = captureWidth →
        checkedLength (Decimal.leading ((front ++ [b]).take captureWidth)) =
          .ok (Decimal.leading ((front ++ [b]).take captureWidth)) := by
      intro full
      have wide : captureWidth ≤ (front ++ [b]).length := by simp [full]
      have nonzero := valid (by rw [List.length_append]; omega)
      rw [take_captureWidth_append wide] at nonzero
      rw [checkedLength_capture (List.length_take_le _ _), if_neg nonzero]
    exact .byte (push_behind more captured) (scan_behind _) (ih _ quiet valid)

/-- Until the first blank line has ended more is needed. -/
theorem passes_behind (front back : Bytes)
    (valid : checkedLength (Decimal.leading (value.take captureWidth)) = .ok n)
    (once : ∀ part, part <+: value → Bytes.blankLine <:+ part → part = value)
    (inside : front ++ back <+: value) (before : front ++ back ≠ value) :
    Passes (behind front) back (behind (front ++ back)) := by
  apply passes_quiet
  · intro part early ended
    have all := once part (early.trans inside) ended
    rw [all] at early
    exact before (inside.eq_of_length_le early.length_le)
  · intro wide zero
    obtain ⟨rest, rfl⟩ := inside
    rw [take_captureWidth_append wide, zero] at valid
    contradiction

end Value

/-- These bytes complete the scan, and no fewer do. -/
def Completes (state : ScanState) (bytes : Bytes) (head : Head) : Prop :=
  ∃ front last middle, bytes = front ++ [last] ∧ Passes state front middle ∧
    middle.push last = (.ok (), done head)

/-- What a byte can do to a capture: it is kept if there is room, and then a length is read, or
refused, or nothing is read yet. -/
theorem push_length {captured kept : Bytes} {b : UInt8}
    (keeps : (if captured.length < captureWidth then captured ++ [b] else captured) = kept)
    (window : BoundaryWindow) :
    ∃ later, (length captured window).push b = (.ok (), length kept later) ∨
      (∃ defect, checkedLength (Decimal.leading kept) = .error defect ∧
        (length captured window).push b = (.error defect, length kept later)) ∨
      ∃ n, checkedLength (Decimal.leading kept) = .ok n ∧
        ((length captured window).push b = (.ok (), done ⟨n⟩) ∨
          (length captured window).push b = (.ok (), boundary n later)) := by
  simp only [push, keeps]
  obtain ⟨ended, later⟩ := window.push b
  refine ⟨later, ?_⟩
  by_cases reads : (ended || kept.length == captureWidth) = true
  · simp only [if_pos reads]
    cases checkedLength (Decimal.leading kept) with
    | error defect => exact .inr (.inl ⟨defect, rfl, rfl⟩)
    | ok n => cases ended with
      | true => exact .inr (.inr ⟨n, rfl, .inl rfl⟩)
      | false => exact .inr (.inr ⟨n, rfl, .inr rfl⟩)
  · exact .inl (if_neg reads)

/-- A length that a scan holds has been checked. -/
def Checked : ScanState → Prop
  | boundary n _ => checkedLength n = .ok n
  | done head => checkedLength head.contentLength = .ok head.contentLength
  | _ => True

theorem Checked.push {state : ScanState} (checked : state.Checked) (b : UInt8) :
    (state.push b).2.Checked := by
  cases state with
  | field matcher =>
    simp only [ScanState.push]
    split <;> trivial
  | length captured window =>
    obtain ⟨_, kept | ⟨_, _, refused⟩ | ⟨n, valid, read⟩⟩ := push_length (b := b) rfl window
    · rw [kept]
      trivial
    · rw [refused]
      trivial
    · have same := eq_of_checkedLength valid
      rw [← same] at valid
      obtain ended | seeking := read
      · rw [ended]
        exact valid
      · rw [seeking]
        exact valid
  | boundary n window =>
    simp only [ScanState.push]
    split
    · exact checked
    · exact checked
  | done head => exact checked

end ScanState

/-- What stands behind a field name that announces the length `n`. -/
def announcedValue (blanks n : Nat) (rest : Bytes) : Bytes :=
  List.replicate blanks 0x20 ++ (Decimal.spell n ++ (0x0D :: 0x0A :: rest))

/-- A head that announces a body of `n` bytes where a scan finds it: in the first field of that
name, which starts a line, and within the width of the capture. -/
structure Announcement (n : Nat) where
  before : Bytes
  blanks : Nat
  rest : Bytes
  line : before = [] ∨ before.getLast? = some 0x0A
  first : ¬ contentLengthField <:+: before
  narrow : blanks + (Decimal.spell n).length ≤ captureWidth
  ended : Bytes.blankLine <:+ announcedValue blanks n rest
  once : ∀ part, part <+: announcedValue blanks n rest → Bytes.blankLine <:+ part →
    part = announcedValue blanks n rest

namespace Announcement

variable {n : Nat}

def value (a : Announcement n) : Bytes := announcedValue a.blanks n a.rest

def bytes (a : Announcement n) : Bytes := a.before ++ (contentLengthField ++ a.value)

theorem lt_of_narrow (a : Announcement n) : n < Nat.pow 10 captureWidth :=
  Decimal.lt_of_length_spell_le (Nat.le_trans (Nat.le_add_left _ _) a.narrow)

theorem leading_value (a : Announcement n) :
    Decimal.leading (a.value.take captureWidth) = n := by
  have fits : n < Decimal.wordLimit := Nat.lt_trans a.lt_of_narrow (by decide)
  have digits : a.value.take captureWidth = List.replicate a.blanks 0x20 ++ (Decimal.spell n ++
      (0x0D :: 0x0A :: a.rest).take (captureWidth - (a.blanks + (Decimal.spell n).length))) := by
    rw [value, announcedValue, ← List.append_assoc, List.take_append, List.take_of_length_le,
      List.length_append, List.length_replicate, List.append_assoc]
    rw [List.length_append, List.length_replicate]
    exact a.narrow
  rw [digits]
  refine Decimal.leading_spell fits fun b first => ?_
  generalize captureWidth - (a.blanks + (Decimal.spell n).length) = width at first
  cases width with
  | zero => simp at first
  | succ width =>
    obtain rfl : (0x0D : UInt8) = b := by simpa using first
    rfl

/-- A scan of the head ends with its last byte and has the length then. -/
theorem completes (a : Announcement n) (positive : n ≠ 0) :
    HeadScanner.new.state.Completes a.bytes ⟨n⟩ := by
  have follows : FieldMatcher.Follows { target := contentLengthField } [] :=
    .start (by decide) rfl []
  obtain ⟨found, before, target, -, reset⟩ := ScanState.passes_before a.before _ [] follows
    fun front inside ends => a.first (ends.isInfix.trans inside.isInfix)
  have fresh : found.matched = 0 := by
    rcases a.line with empty | last
    · rw [empty] at before
      cases before
      rfl
    · exact reset 0x0A last (by decide)
  have name := ScanState.passes_name (m := found) [] _ target fresh (by decide)
  obtain ⟨front, last, whole⟩ : ∃ front last, a.value = front ++ [last] := by
    have nonempty : a.value ≠ [] := fun empty => by
      have ended := a.ended
      rw [← value, empty] at ended
      exact absurd (List.suffix_nil.mp ended) (by decide)
    exact ⟨_, _, (List.dropLast_concat_getLast nonempty).symm⟩
  have fits : n < Decimal.wordLimit - 1 := Nat.lt_trans a.lt_of_narrow (by decide)
  have valid : checkedLength (Decimal.leading (a.value.take captureWidth)) = .ok n := by
    rw [a.leading_value, checkedLength, if_neg positive, if_neg (by omega)]
  have behind := ScanState.passes_behind [] front valid a.once
    (by rw [whole]; exact List.prefix_append _ _) (by simp [whole])
  refine ⟨a.before ++ (contentLengthField ++ front), last, _, ?_,
    before.append (name.append behind), ?_⟩
  · rw [bytes, whole]
    simp only [List.append_assoc]
  · rw [whole] at valid
    exact ScanState.push_behind_end (whole ▸ a.ended) valid

end Announcement

section Taking
variable {σ κ : Type} [Network (StateM σ) κ] {link : Link κ} {s middle after : σ}
  {bytes front back : Bytes} {b : UInt8}

/-- One read after the other, each for a single byte, takes these bytes off the link. -/
inductive Takes (link : Link κ) : σ → Bytes → σ → Prop
  | none {s : σ} : Takes link s [] s
  | byte {s middle after : σ} {b : UInt8} {bytes : Bytes} {fits : [b].length ≤ 1} :
      link.receive (m := StateM σ) 1 s = (.ok ⟨[b], fits⟩, middle) →
      Takes link middle bytes after → Takes link s (b :: bytes) after

theorem Takes.split (taken : Takes link s (front ++ back) after) :
    ∃ middle, Takes link s front middle ∧ Takes link middle back after := by
  induction front generalizing s with
  | nil => exact ⟨s, .none, taken⟩
  | cons b front ih =>
    cases taken with
    | byte answer rest =>
      obtain ⟨middle, first, last⟩ := ih rest
      exact ⟨middle, .byte answer first, last⟩

theorem Takes.concat {fits : [b].length ≤ 1} (taken : Takes link s bytes middle)
    (answer : link.receive (m := StateM σ) 1 middle = (.ok ⟨[b], fits⟩, after)) :
    Takes link s (bytes ++ [b]) after := by
  induction taken with
  | none => exact .byte answer .none
  | byte first _ ih => exact .byte first (ih answer)

/-- While the scan needs more, single reads give it the bytes that they take. -/
theorem scanHead_takes [Log (StateM σ)] {scanner : HeadScanner} {state : ScanState}
    (passes : scanner.state.Passes bytes state)
    (taken : Takes link s bytes after) (budget : Nat) :
    scanHead (m := StateM σ) link scanner (bytes.length + budget) s =
      scanHead (m := StateM σ) link ⟨state, scanner.consumed + bytes.length⟩ budget after := by
  induction taken generalizing scanner with
  | none =>
    cases passes
    rw [List.length_nil, Nat.zero_add, Nat.add_zero]
  | @byte s middle after b bytes fits answer _ ih =>
    cases passes with
    | @byte _ next _ _ _ pushed more passes =>
      have told : scanner.push b = (.ok .needMore, ⟨next, scanner.consumed + 1⟩) := by
        simp only [HeadScanner.push, pushed, Except.map, more]
      have count : (b :: bytes).length + budget = bytes.length + budget + 1 :=
        Nat.add_right_comm bytes.length 1 budget
      have consumed : scanner.consumed + (b :: bytes).length =
          scanner.consumed + 1 + bytes.length := by
        rw [List.length_cons, Nat.add_assoc, Nat.add_comm 1]
      rw [count, consumed, scanHead, bind_of_eq answer]
      dsimp only
      rw [told]
      exact ih passes

end Taking

section Reading
variable {script : Script} {c : Handle} {bytes rest : Bytes} {failAtEnd : Bool}
  {head : Head}

/-- Whatever the chunks are, single reads take the bytes that a connection has to deliver. -/
theorem takes_of_unread (unread : script.Unread c (bytes ++ rest) failAtEnd) :
    ∃ after : Script, Takes (.ofConnection c) script bytes after ∧
      after.Unread c rest failAtEnd ∧ Reads c script after := by
  induction bytes generalizing script with
  | nil => exact ⟨script, .none, unread, .refl c script⟩
  | cons b bytes ih =>
    obtain ⟨next, answer, left, one⟩ := unread.receive_one
    obtain ⟨after, taken, left, all⟩ := ih left
    exact ⟨after, .byte answer taken, left, one.trans all⟩

/-- Then the link is handed on with the head's last byte taken and nothing behind it. -/
theorem readHead_completes (completes : HeadScanner.new.state.Completes bytes head)
    (unread : script.Unread c (bytes ++ rest) failAtEnd) (short : bytes.length ≤ maxHeadLength) :
    ∃ after, readHead (m := StateM Script) (.ofConnection c) script =
        ((.ok head, .ofConnection c), after) ∧
      after.Unread c rest failAtEnd ∧ Reads c script after := by
  obtain ⟨front, last, middle, rfl, passes, pushed⟩ := completes
  rw [List.append_assoc] at unread
  rw [List.length_append, List.length_singleton] at short
  obtain ⟨scanned, taken, left, front_reads⟩ := takes_of_unread unread
  have same := scanHead_takes passes taken (maxHeadLength - front.length)
  obtain ⟨read, answer, unread, one⟩ := left.receive_one
  have next : HeadScanner.push ⟨middle, HeadScanner.new.consumed + front.length⟩ last =
      (.ok (.complete head), ⟨.done head, HeadScanner.new.consumed + front.length + 1⟩) := by
    simp only [HeadScanner.push, pushed, Except.map, ScanState.scan]
  obtain ⟨budget, left⟩ : ∃ budget, maxHeadLength - front.length = budget + 1 :=
    ⟨maxHeadLength - front.length - 1, by omega⟩
  have found : ∃ record, scanHead (m := StateM Script) (.ofConnection c) .new maxHeadLength
      script = (.ok head, read.note record) := by
    have all : maxHeadLength = front.length + (maxHeadLength - front.length) := by omega
    rw [all, same, left, scanHead, bind_of_eq answer]
    dsimp only
    rw [next]
    exact ⟨_, rfl⟩
  obtain ⟨record, found⟩ := found
  obtain ⟨chunks, queued, flat⟩ := unread
  refine ⟨read.note record, ?_, ⟨chunks, queued.note record, flat⟩,
    (front_reads.trans one).trans (reads_note c read record)⟩
  rw [readHead, bind_of_eq found]
  rfl

/-- Scanning reads and does nothing else, and a length that comes of it has been checked. -/
theorem scanHead_reads (scanner : HeadScanner) (checked : scanner.state.Checked) (budget : Nat)
    (script : Script) : ∃ outcome after,
      scanHead (m := StateM Script) (.ofConnection c) scanner budget script = (outcome, after) ∧
      Reads c script after ∧ ∀ head, outcome = .ok head →
        checkedLength head.contentLength = .ok head.contentLength := by
  induction budget generalizing scanner script with
  | zero => exact ⟨_, _, rfl, .refl c script, nofun⟩
  | succ budget ih =>
    obtain ⟨answer, read, received⟩ : ∃ answer read,
        script.receive c 1 = (answer, read) := ⟨_, _, rfl⟩
    have one := reads_receive script c 1
    rw [received] at one
    rw [scanHead, bind_of_eq received]
    rcases answer with fault | ⟨_ | ⟨b, more⟩, fits⟩
    · exact ⟨_, _, rfl, one, nofun⟩
    · exact ⟨_, _, rfl, one, nofun⟩
    · dsimp only
      have next := checked.push b
      obtain ⟨outcome, state, pushed⟩ : ∃ outcome state,
          scanner.state.push b = (outcome, state) := ⟨_, _, rfl⟩
      rw [pushed] at next
      simp only [HeadScanner.push, pushed]
      cases outcome with
      | error defect => exact ⟨_, _, rfl, one, nofun⟩
      | ok _ =>
        cases state with
        | done head =>
          refine ⟨_, _, rfl, one.trans (reads_note c read _), fun other same => ?_⟩
          obtain rfl : head = other := Except.ok.inj same
          exact next
        | _ =>
          obtain ⟨outcome, after, scanned, reads, sound⟩ := ih ⟨_, scanner.consumed + 1⟩ next read
          exact ⟨outcome, after, scanned, one.trans reads, sound⟩

theorem readHead_closes (c : Handle) (script : Script) :
    (∃ head after, readHead (m := StateM Script) (.ofConnection c) script =
        ((.ok head, .ofConnection c), after) ∧ Reads c script after ∧
        checkedLength head.contentLength = .ok head.contentLength) ∨
    ∃ failure after, readHead (m := StateM Script) (.ofConnection c) script =
        ((.error failure, ⟨none⟩), after) ∧ Closes c script after := by
  obtain ⟨outcome, after, scanned, reads, sound⟩ :=
    scanHead_reads (c := c) .new trivial maxHeadLength script
  rw [readHead, bind_of_eq scanned]
  cases outcome with
  | error failure => exact .inr ⟨failure, _, rfl, after, reads, rfl⟩
  | ok head => exact .inl ⟨head, after, rfl, reads, sound head rfl⟩

end Reading
end CoreLocator.Response
