import CoreLocator.Proofs.Candidate
import CoreLocator.Proofs.Document

/-! Which entry is selected. The entries are those up to the first that is missing; an automatic
choice takes the first of them that can be reached and asks the usable ones before it, a choice by
number takes the entry as it stands and asks nobody. -/
namespace CoreLocator
open Network Network.Script

namespace Json.Slice
variable {container slice : Slice} {found : Option Slice} {index position bound : Nat} {s t : Bytes}
  {key : Bytes} {first : Bool} {step : Step}

theorem length_value (container : Slice) (s after : Bytes) :
    (container.value s after).text.length ≤ s.length := by
  have blanks := length_dropWhile_le isBlank s
  have cut := List.length_take_le ((skipBlanks s).length - after.length) (skipBlanks s)
  rw [skipBlanks] at cut
  rw [Slice.value, skipBlanks]
  dsimp only
  omega

/-- What is found in a list is a part of it. -/
theorem length_of_findElement (inside : s.length ≤ bound)
    (known : ∀ slice, found = some slice → slice.text.length ≤ bound)
    (walked : findElement container index found position s = .ok (some slice)) :
    slice.text.length ≤ bound := by
  fun_induction findElement container index found position s with
  | case1 => contradiction
  | case2 => exact known slice (Except.ok.inj walked)
  | case3 => contradiction
  | case4 found position s t next u skipped found' ih =>
    have more := length_of_nextElement next
    have less := length_of_skim skipped
    apply ih (by omega)
    · intro other stands
      simp only [found'] at stands
      split at stands
      · obtain rfl := Option.some.inj stands
        have part := length_value container t u
        omega
      · exact known other stands
    · exact walked

/-- What is found in an object is a part of it. -/
theorem length_of_findMember (inside : s.length ≤ bound)
    (known : ∀ slice, found = some slice → slice.text.length ≤ bound)
    (walked : findMember container key found first s = .ok (some slice)) :
    slice.text.length ≤ bound := by
  fun_induction findMember container key found first s with
  | case1 => contradiction
  | case2 => exact known slice (Except.ok.inj walked)
  | case3 => contradiction
  | case4 => contradiction
  | case5 found first s name t next u colon v skipped found' ih =>
    have more := length_of_nextKey next
    have mark := length_of_skimColon colon
    have less := length_of_skim skipped
    apply ih (by omega)
    · intro other stands
      simp only [found'] at stands
      split at stands
      · obtain rfl := Option.some.inj stands
        have part := length_value container u v
        omega
      · exact known other stands
    · exact walked

/-- Every element takes a byte at least. -/
theorem index_lt_of_findElement
    (walked : findElement container index none position s = .ok (some slice)) :
    index < position + s.length := by
  generalize unknown : (none : Option Slice) = found at walked
  fun_induction findElement container index found position s with
  | case1 => contradiction
  | case2 =>
    subst unknown
    cases walked
  | case3 => contradiction
  | case4 found position s t next u skipped found' ih =>
    have more := length_of_nextElement next
    have less := length_of_skim skipped
    by_cases here : position = index
    · omega
    · have later := ih (by simp only [found', here, unknown, dite_false]) walked
      omega

theorem ok_of_join {walked : Except Fault (Option Slice)}
    (found : walked.toOption.join = some slice) : walked = .ok (some slice) := by
  cases walked with
  | error fault => contradiction
  | ok place => exact congrArg Except.ok found

/-- A step leads to a part of the text, and an index counts no more elements than there are
bytes. -/
theorem length_of_step? {inner : Slice} (stepped : container.step? step = some inner) :
    inner.text.length ≤ container.text.length ∧
      ∀ n, step = .index n → n < container.text.length := by
  unfold Slice.step? at stepped
  split at stepped
  · contradiction
  · next b s same =>
    have shorter := length_of_skipBlanks same
    cases step with
    | key name =>
      dsimp only at stepped
      split at stepped
      · constructor
        · exact length_of_findMember (Nat.le_of_lt shorter) (by simp) (ok_of_join stepped)
        · intro n other
          contradiction
      · contradiction
    | index n =>
      dsimp only at stepped
      split at stepped
      · have walked := ok_of_join stepped
        constructor
        · exact length_of_findElement (Nat.le_of_lt shorter) (by simp) walked
        · intro m same
          obtain rfl := Step.index.inj same
          have counted := index_lt_of_findElement walked
          omega
      · contradiction

/-- A path that leads somewhere has no index that is larger than the text. -/
theorem index_lt_of_foldlM {path : Path} (led : path.foldlM Slice.step? container = some slice)
    (member : .index index ∈ path) : index < container.text.length := by
  induction path generalizing container with
  | nil => contradiction
  | cons step path ih =>
    rw [List.foldlM_cons] at led
    obtain ⟨inner, stepped, rest⟩ := Option.bind_eq_some_iff.mp led
    obtain ⟨smaller, counted⟩ := length_of_step? stepped
    rcases List.mem_cons.mp member with here | later
    · exact counted index here.symm
    · have below := ih rest later
      omega

end Json.Slice

namespace Candidate
variable {document : Bytes} {index : Nat} {c : Candidate}

/-- An entry is what its two fields say. -/
theorem at?_of_fits (document : Bytes) (fits : index < Decimal.wordLimit) :
    at? document index = (Document.follow? document (Document.hostSteps index)).map fun host =>
      { index, host := Utf8.text host,
        port := (Document.follow? document (Document.portSteps index)).bind port? } := by
  rw [at?, Document.search?_of_parse (Document.parse?_hostPath fits),
    Document.search?_of_parse (Document.parse?_portPath fits)]
  cases Document.follow? document (Document.hostSteps index) <;> rfl

theorem at?_of_large (document : Bytes) (large : Decimal.wordLimit ≤ index) :
    at? document index = none := by
  rw [at?, Document.search?, Json.search?, Document.parse?_hostPath_large large]
  rfl

theorem fits_of_at? (found : at? document index = some c) : index < Decimal.wordLimit := by
  apply Nat.lt_of_not_le
  intro large
  rw [at?_of_large document large] at found
  contradiction

/-- Entries are fewer than the document has bytes. -/
theorem lt_of_at? (found : at? document index = some c) : index < document.length := by
  rw [at?_of_fits document (fits_of_at? found)] at found
  obtain ⟨host, followed, -⟩ := Option.map_eq_some_iff.mp found
  obtain ⟨slice, led, -⟩ := Option.map_eq_some_iff.mp followed
  apply Json.Slice.index_lt_of_foldlM led
  simp [Document.hostSteps, Document.entrySteps]

theorem index_of_at? (found : at? document index = some c) : c.index = index := by
  obtain ⟨host, -, same⟩ := Option.bind_eq_some_iff.mp found
  obtain rfl := Option.some.inj same
  rfl

section Unfolding
-- Lean would look for the entry while it compares the two sides.
attribute [local irreducible] at?

theorem listFrom_succ (document : Bytes) (index limit : Nat) :
    listFrom document index (limit + 1) =
      match at? document index with
      | none => []
      | some c => c :: listFrom document (index + 1) limit := rfl

end Unfolding

theorem listFrom_getElem? {limit i : Nat} (inside : i < (listFrom document index limit).length) :
    (listFrom document index limit)[i]? = at? document (index + i) := by
  induction limit generalizing index i with
  | zero => exact absurd inside (Nat.not_lt_zero i)
  | succ limit ih =>
    rw [listFrom_succ] at inside ⊢
    cases found : at? document index with
    | none =>
      rw [found] at inside
      contradiction
    | some c =>
      rw [found] at inside
      cases i with
      | zero => exact found.symm
      | succ i =>
        dsimp only
        rw [List.getElem?_cons_succ, ih (Nat.lt_of_succ_lt_succ inside), Nat.add_assoc,
          Nat.add_comm 1]

theorem at?_length_listFrom {limit : Nat}
    (short : (listFrom document index limit).length < limit) :
    at? document (index + (listFrom document index limit).length) = none := by
  induction limit generalizing index with
  | zero => exact absurd short (Nat.not_lt_zero _)
  | succ limit ih =>
    rw [listFrom_succ] at short ⊢
    cases found : at? document index with
    | none => exact found
    | some c =>
      rw [found] at short
      dsimp only
      rw [List.length_cons, ← Nat.add_assoc, Nat.add_right_comm]
      exact ih (Nat.lt_of_succ_lt_succ short)

/-- The entries are all those up to the first that is missing. -/
theorem list_entries (document : Bytes) :
    (∀ i < (list document).length, (list document)[i]? = at? document i) ∧
      at? document (list document).length = none := by
  constructor
  · intro i inside
    have entry := listFrom_getElem? inside
    rw [Nat.zero_add] at entry
    exact entry
  · by_cases short : (list document).length < document.length
    · have missing := at?_length_listFrom short
      rw [Nat.zero_add] at missing
      exact missing
    · -- As many entries as bytes leave no byte for another one.
      apply Option.eq_none_iff_forall_ne_some.mpr
      intro c found
      exact short (lt_of_at? found)

theorem at?_of_split {before rest : List Candidate}
    (split : list document = before ++ c :: rest) : at? document before.length = some c := by
  have inside : before.length < (list document).length := by
    rw [split, List.length_append, List.length_cons]
    omega
  have entry := (list_entries document).1 before.length inside
  rw [split, List.getElem?_append_right (Nat.le_refl _), Nat.sub_self] at entry
  exact entry.symm

/-- Where an automatic choice asks for an entry, if it asks at all. -/
def endpoint? (c : Candidate) : Option (String × UInt16) :=
  if c.host = "" ∨ c.host = "127.0.0.1" then none else c.port.map fun port => (c.host, port)

/-- Whether an entry is asked and answers. -/
def Reachable (script : Script) (c : Candidate) : Prop :=
  ∃ port, c.endpoint? = some (c.host, port) ∧ script.accepts c.host port = true

theorem usable?_eq (c : Candidate) :
    c.usable? = c.endpoint?.map fun endpoint => ⟨c.index, endpoint.1, endpoint.2⟩ := by
  obtain ⟨index, host, port⟩ := c
  have valid : isValidAddress host = true ↔ ¬(host = "" ∨ host = "127.0.0.1") := by
    simp [isValidAddress, loopback]
  rw [usable?, endpoint?]
  by_cases unsuitable : host = "" ∨ host = "127.0.0.1"
  · rw [if_pos unsuitable, if_neg (fun is => valid.mp is unsuitable)]
    rfl
  · rw [if_neg unsuitable, if_pos (valid.mpr unsuitable)]
    cases port <;> rfl

theorem endpoint?_eq_some {endpoint : String × UInt16} (asked : c.endpoint? = some endpoint) :
    endpoint.1 = c.host ∧ c.port = some endpoint.2 := by
  unfold endpoint? at asked
  split at asked
  · contradiction
  · obtain ⟨port, usable, rfl⟩ := Option.map_eq_some_iff.mp asked
    exact ⟨rfl, usable⟩

theorem suitable_of_endpoint? {endpoint : String × UInt16} (asked : c.endpoint? = some endpoint) :
    c.host ≠ "" ∧ c.host ≠ "127.0.0.1" := by
  unfold endpoint? at asked
  split at asked
  · contradiction
  · next suitable => exact not_or.mp suitable

theorem map_usable? (candidates : List Candidate) :
    ((candidates.filterMap usable?).map fun s => (s.host, s.port)) =
      candidates.filterMap endpoint? := by
  rw [List.map_filterMap]
  congr 1
  funext c
  rw [usable?_eq, Option.map_map]
  exact Option.map_id'

end Candidate

namespace Network

/-- The journal with these connects behind it, all with one trust anchor, and with so many
connections more taken down. -/
def Journal.probed (journal : Journal) (ca : Bytes) (asked : List (String × UInt16))
    (closed : Nat) : Journal :=
  { journal with
    connects := journal.connects ++ asked
    trust := journal.trust ++ asked.map fun _ => some ca
    disconnects := journal.disconnects + closed }

end Network

namespace Selection
variable {script after : Script} {ca : Bytes}

theorem Probes.journal_probed {asked : List Selected} {closed : Nat}
    (probes : Probes ca asked closed script after) :
    after.journal = script.journal.probed ca (asked.map fun s => (s.host, s.port)) closed := by
  have fields : after.journal = ⟨after.journal.connects, after.journal.trust, after.journal.sent,
    after.journal.disconnects⟩ := rfl
  rw [fields, probes.connects, probes.trust, probes.sent, probes.disconnects, Journal.probed,
    List.map_map]
  rfl

theorem attempts_of_none {accepts : Selected → Bool} {usable : List Selected}
    (refused : usable.find? accepts = none) : attempts accepts usable = usable := by
  have all : ∀ s ∈ usable, (!accepts s) = true := by
    intro s member
    rw [Bool.eq_false_iff.mpr (List.find?_eq_none.mp refused s member)]
    rfl
  rw [attempts, refused, List.takeWhile_eq_self_iff.mpr all]
  exact List.append_nil usable

theorem attempts_of_some {accepts : Selected → Bool} {front behind : List Selected} {s : Selected}
    (accepted : accepts s = true) (refused : ∀ t ∈ front, (!accepts t) = true) :
    attempts accepts (front ++ s :: behind) = front ++ [s] := by
  have first : (front ++ s :: behind).find? accepts = some s :=
    List.find?_eq_some_iff_append.mpr ⟨accepted, front, behind, rfl, refused⟩
  rw [attempts, first, List.takeWhile_append_of_pos refused, List.takeWhile_cons_of_neg]
  · rw [List.append_nil]
    rfl
  · rw [accepted]
    exact Bool.false_ne_true

theorem reachable_of_usable {c : Candidate} {s : Selected} (usable : c.usable? = some s)
    (accepted : accepts script s = true) :
    c.endpoint? = some (c.host, s.port) ∧ script.accepts c.host s.port = true ∧
      s = ⟨c.index, c.host, s.port⟩ := by
  rw [Candidate.usable?_eq] at usable
  obtain ⟨⟨host, port⟩, asked, rfl⟩ := Option.map_eq_some_iff.mp usable
  obtain ⟨rfl, -⟩ := Candidate.endpoint?_eq_some asked
  exact ⟨asked, accepted, rfl⟩

theorem usable_of_reachable {c : Candidate} (reachable : c.Reachable script) :
    ∃ s, c.usable? = some s ∧ accepts script s = true := by
  obtain ⟨port, asked, accepted⟩ := reachable
  refine ⟨⟨c.index, c.host, port⟩, ?_, accepted⟩
  rw [Candidate.usable?_eq, asked]
  rfl

/-- The first entry that can be reached is taken. The usable entries up to that one, or all of
them, are asked, each once and in order; what answers is taken down at once, and nothing is sent. -/
inductive FirstReachable (ca : Bytes) (script : Script) (entries : List Candidate) :
    Except Failure Selected → Script → Prop
  | taken {before rest : List Candidate} {c : Candidate} {port : UInt16} {after : Script}
      (split : entries = before ++ c :: rest)
      (passed : ∀ d ∈ before, ¬d.Reachable script)
      (asked : c.endpoint? = some (c.host, port))
      (accepted : script.accepts c.host port = true)
      (journal : after.journal =
        script.journal.probed ca ((before ++ [c]).filterMap Candidate.endpoint?) 1) :
      FirstReachable ca script entries (.ok ⟨before.length, c.host, port⟩) after
  | unreachable {after : Script}
      (passed : ∀ c ∈ entries, ¬c.Reachable script)
      (journal : after.journal =
        script.journal.probed ca (entries.filterMap Candidate.endpoint?) 0) :
      FirstReachable ca script entries (.error (.noReachableCandidate entries.length)) after

/-- The entry of this number is taken, whatever its host, and nobody is asked. -/
inductive AsItStands (document : Bytes) (index : Nat) (script : Script) :
    Except Failure Selected → Script → Prop
  | taken {host : String} {port : UInt16} {after : Script}
      (entry : Candidate.at? document index = some ⟨index, host, some port⟩)
      (journal : after.journal = script.journal) :
      AsItStands document index script (.ok ⟨index, host, port⟩) after
  | missing {after : Script}
      (absent : ∀ host port, Candidate.at? document index ≠ some ⟨index, host, some port⟩)
      (journal : after.journal = script.journal) :
      AsItStands document index script (.error (.noReachableCandidate 0)) after

theorem automatic_outcome (document ca : Bytes) (script : Script) : ∃ outcome after,
    automatic.choose (m := StateM Script) document ca script = (outcome, after) ∧
      FirstReachable ca script (Candidate.list document) outcome after := by
  obtain ⟨after, chosen, probes⟩ := probe_outcome ca 0 (Candidate.list document) script
  refine ⟨_, after, chosen, ?_⟩
  have journal := probes.journal_probed
  cases first : ((Candidate.list document).filterMap Candidate.usable?).find? (accepts script) with
  | none =>
    rw [first, attempts_of_none first, Candidate.map_usable?] at journal
    rw [Nat.zero_add]
    apply FirstReachable.unreachable _ journal
    intro c member reachable
    obtain ⟨s, usable, accepted⟩ := usable_of_reachable reachable
    have listed := List.mem_filterMap.mpr ⟨c, member, usable⟩
    exact List.find?_eq_none.mp first s listed accepted
  | some s =>
    obtain ⟨accepted, front, behind, split, refused⟩ := List.find?_eq_some_iff_append.mp first
    obtain ⟨fore, back, whole, front_eq, back_eq⟩ := List.filterMap_eq_append_iff.mp split
    obtain ⟨skipped, c, rest, rfl, unusable, usable, -⟩ := List.filterMap_eq_cons_iff.mp back_eq
    obtain ⟨asked, answered, same⟩ := reachable_of_usable usable accepted
    rw [first, split, attempts_of_some accepted refused] at journal
    rw [← List.append_assoc] at whole
    rw [same, Candidate.index_of_at? (Candidate.at?_of_split whole)]
    apply FirstReachable.taken whole _ asked answered
    · rw [journal, ← Candidate.map_usable?, List.filterMap_append, List.filterMap_append, front_eq,
        List.filterMap_eq_nil_iff.mpr unusable, List.append_nil, List.filterMap_cons, usable]
      rfl
    · intro d member reachable
      obtain ⟨t, usable, answers⟩ := usable_of_reachable reachable
      rcases List.mem_append.mp member with early | late
      · have listed := front_eq ▸ List.mem_filterMap.mpr ⟨d, early, usable⟩
        simpa [answers] using refused t listed
      · rw [unusable d late] at usable
        contradiction

theorem manual_outcome (index : Nat) (document ca : Bytes) (script : Script) : ∃ outcome after,
    (manual index).choose (m := StateM Script) document ca script = (outcome, after) ∧
      AsItStands document index script outcome after := by
  dsimp only [choose]
  cases found : Candidate.at? document index with
  | none => exact ⟨_, _, rfl, .missing (by simp [found]) rfl⟩
  | some c =>
    obtain rfl := Candidate.index_of_at? found
    obtain ⟨index, host, port⟩ := c
    cases port with
    | none => exact ⟨_, _, rfl, .missing (by simp [found]) rfl⟩
    | some port => exact ⟨_, _, rfl, .taken found rfl⟩

/-- What is chosen, what is asked for it and what the journal says then, for every document and
whatever the peers do. The entries are those up to the first that is missing; a number names the
entry that its two paths lead to, also behind a gap. -/
theorem choose_outcome (document ca : Bytes) (script : Script) :
    let entries := Candidate.list document
    ((∀ i < entries.length, entries[i]? = Candidate.at? document i) ∧
      Candidate.at? document entries.length = none) ∧
    (∃ outcome after,
      automatic.choose (m := StateM Script) document ca script = (outcome, after) ∧
        FirstReachable ca script entries outcome after) ∧
    ∀ index : UInt64,
      (Candidate.at? document index.toNat =
        (Document.follow? document (Document.hostSteps index.toNat)).map fun host =>
          { index := index.toNat, host := Utf8.text host,
            port := (Document.follow? document (Document.portSteps index.toNat)).bind
              Candidate.port? }) ∧
      ∃ outcome after,
        (manual index.toNat).choose (m := StateM Script) document ca script = (outcome, after) ∧
          AsItStands document index.toNat script outcome after := by
  constructor
  · exact Candidate.list_entries document
  · constructor
    · exact automatic_outcome document ca script
    · intro index
      constructor
      · exact Candidate.at?_of_fits document (UInt64.toNat_lt index)
      · exact manual_outcome index.toNat document ca script

end Selection
end CoreLocator
