import CoreLocator.Proofs.Discovery.Interpretation

/-! A walk over the entries of a document. Its answers are the entries of the list, one after the
other, and then nothing for good. Where the keys of a document denote strings, they are the entries
that have a host, up to the first that has none, each with the host and the port of one entry. -/
namespace CoreLocator
open Json

namespace Candidate.Enumeration

def after (walk : Enumeration) : (answered : Nat) → Enumeration
  | 0 => walk
  | n + 1 => (walk.after n).advance.2

def answer (walk : Enumeration) (answered : Nat) : Option Candidate :=
  (walk.after answered).advance.1

variable {document : Bytes}

/-- The walk behind so many entries, or at its end if there are fewer. -/
def behind (document : Bytes) (n : Nat) : Enumeration where
  document := document
  next := if n ≤ (list document).length then some n else none

theorem advance_behind (document : Bytes) (n : Nat) :
    (behind document n).advance = ((list document)[n]?, behind document (n + 1)) := by
  obtain ⟨entries, missing⟩ := list_entries document
  -- Within the list, at the entry that ends it, and behind that one.
  rcases Nat.lt_trichotomy n (list document).length with inside | last | beyond
  · have next : n + 1 ≤ (list document).length := inside
    rw [behind, behind, if_pos (Nat.le_of_lt inside), if_pos next, advance]
    dsimp only
    rw [← entries n inside, List.getElem?_eq_getElem inside, Option.map_some]
  · have past : ¬n + 1 ≤ (list document).length := by omega
    rw [behind, behind, if_pos (Nat.le_of_eq last), if_neg past, advance]
    dsimp only
    rw [last, missing, List.getElem?_eq_none (Nat.le_refl _)]
    rfl
  · have past : ¬n + 1 ≤ (list document).length := by omega
    rw [behind, behind, if_neg (Nat.not_le_of_lt beyond), if_neg past, advance,
      List.getElem?_eq_none (Nat.le_of_lt beyond)]

theorem after_eq (document : Bytes) (n : Nat) :
    after ⟨document, some 0⟩ n = behind document n := by
  induction n with
  | zero => rw [after, behind, if_pos (Nat.zero_le _)]
  | succ n ih => rw [after, ih, advance_behind]

theorem answer_eq (document : Bytes) (n : Nat) :
    answer ⟨document, some 0⟩ n = (list document)[n]? := by
  rw [answer, after_eq, advance_behind]

theorem answer_eq_some {n : Nat} {c : Candidate} :
    answer ⟨document, some 0⟩ n = some c ↔
      n < (list document).length ∧ at? document n = some c := by
  have entries := (list_entries document).1 n
  rw [answer_eq]
  constructor
  · intro answered
    obtain ⟨inside, -⟩ := List.getElem?_eq_some_iff.mp answered
    exact ⟨inside, (entries inside).symm.trans answered⟩
  · rintro ⟨inside, found⟩
    exact (entries inside).trans found

end Candidate.Enumeration

namespace Candidate
open Document
variable {source : Source} {tree : Tree} {index : Nat} {c : Candidate}

/-- A candidate says what stands in an entry: the text of its host, and the port that the text of
its other field begins with. -/
structure Tells (entry : Place) (c : Candidate) : Prop where
  host : ∃ place, entry.value.child? (key "HostAddress") = some place ∧
    Bytes.ofString c.host = place.value.content
  port : c.port = ((entry.value.child? (key "PortNumber")).map (·.value.content)).bind port?

/-- Both fields are looked up in the same entry. -/
theorem tells_of_at? (spells : source.tree? = some tree) (found : at? source.text index = some c) :
    ∃ entry, source.select? (entrySteps index) = some entry ∧
      entry.value.tree? = tree.follow? (entrySteps index) ∧ Tells entry c := by
  rw [Discovery.at?_source source (fits_of_at? found), hostSteps, portSteps,
    Source.content?_append spells, Source.content?_append spells] at found
  obtain ⟨host, stands, rfl⟩ := Option.map_eq_some_iff.mp found
  obtain ⟨entry, selected, child⟩ := Option.bind_eq_some_iff.mp stands
  obtain ⟨place, led, rfl⟩ := Option.map_eq_some_iff.mp child
  refine ⟨entry, selected, ?_, ?_, ?_⟩
  · have same := select?_source_tree spells (entrySteps index)
    rw [selected, Option.map_some] at same
    obtain ⟨value, followed, spelled⟩ := Option.map_eq_some_iff.mp same.symm
    rw [followed, spelled]
  · exact ⟨place, led, Utf8.ofString_text (isText_content place.value)⟩
  · dsimp only
    rw [selected, Option.bind_some]

theorem isSome_at? (spells : source.tree? = some tree) (fits : index < Decimal.wordLimit) :
    (at? source.text index).isSome = (tree.follow? (hostSteps index)).isSome := by
  rw [Discovery.at?_source source fits, Option.isSome_map, Source.isSome_content? spells]

/-- The list goes as far as there is a host in each entry. -/
theorem lt_length_list (document : Bytes) (k : Nat) :
    k < (list document).length ↔ ∀ j ≤ k, (at? document j).isSome := by
  obtain ⟨entries, missing⟩ := list_entries document
  constructor
  · intro inside j le
    have before : j < (list document).length := Nat.lt_of_le_of_lt le inside
    rw [← entries j before, List.getElem?_eq_getElem before]
    rfl
  · intro all
    apply Nat.lt_of_not_le
    intro beyond
    have entry := all _ beyond
    rw [missing] at entry
    contradiction

theorem length_list_le (document : Bytes) : (list document).length ≤ document.length := by
  apply Nat.le_of_not_lt
  intro more
  have entry := (lt_length_list document document.length).mp more _ (Nat.le_refl _)
  obtain ⟨c, found⟩ := Option.isSome_iff_exists.mp entry
  exact Nat.lt_irrefl _ (lt_of_at? found)

/-- A walk over any bytes answers with as many entries as there are, no more than there are bytes,
numbered from zero on, and from then on with nothing. Over a document whose keys denote strings the
entries are those with a host, up to the first without one, and each says what stands in the entry
of its number. -/
theorem enumeration_entries (document : Bytes) : ∃ count ≤ document.length,
    (∀ k < count, ∃ c, Enumeration.answer ⟨document, some 0⟩ k = some c ∧ c.index = k) ∧
    (∀ k, count ≤ k → Enumeration.answer ⟨document, some 0⟩ k = none) ∧
    ∀ (source : Source) (tree : Tree), source.text = document → source.tree? = some tree →
      ∀ k : UInt64,
        (k.toNat < count ↔ ∀ j ≤ k.toNat, (tree.follow? (hostSteps j)).isSome) ∧
        ∀ c, Enumeration.answer ⟨document, some 0⟩ k.toNat = some c →
          ∃ entry, source.select? (entrySteps k.toNat) = some entry ∧
            entry.value.tree? = tree.follow? (entrySteps k.toNat) ∧ Tells entry c := by
  refine ⟨(list document).length, length_list_le document, ?_, ?_, ?_⟩
  · intro k inside
    have entry := (lt_length_list document k).mp inside k (Nat.le_refl k)
    obtain ⟨c, found⟩ := Option.isSome_iff_exists.mp entry
    exact ⟨c, Enumeration.answer_eq_some.mpr ⟨inside, found⟩, index_of_at? found⟩
  · intro k beyond
    rw [Enumeration.answer_eq]
    exact List.getElem?_eq_none beyond
  · rintro source tree rfl spells k
    constructor
    · rw [lt_length_list]
      have same (j : Nat) (le : j ≤ k.toNat) := isSome_at? spells
        (Nat.lt_of_le_of_lt le (UInt64.toNat_lt k))
      constructor
      · intro all j le
        rw [← same j le]
        exact all j le
      · intro all j le
        rw [same j le]
        exact all j le
    · intro c answered
      exact tells_of_at? spells (Enumeration.answer_eq_some.mp answered).2

def gap : Source where
  before := []
  value := .object [] [.plain "GGGroups" <| Discovery.only <| .object []
    [.plain "Cores" <| Discovery.only <| .object [] [.plain "Connectivity" <| .list []
      [⟨[], .object [] [.plain "HostAddress" (.number ⟨false, 5, none, none⟩),
          .plain "PortNumber" (.number ⟨false, 1, none, none⟩)], []⟩,
        ⟨[], .object [] [.plain "PortNumber" (.number ⟨false, 2, none, none⟩)], []⟩,
        ⟨[], .object [] [.plain "HostAddress" (.number ⟨false, 7, none, none⟩)], []⟩]]]]
  after := []

/-- The first entry is the only one. -/
theorem enumeration_entries_gap : (∃ tree, gap.tree? = some tree) ∧
    Enumeration.answer ⟨gap.text, some 0⟩ 0 = some ⟨0, "5", some 1⟩ ∧
    ∀ k, 1 ≤ k → Enumeration.answer ⟨gap.text, some 0⟩ k = none := by
  have readable : gap.tree?.isSome = true := by
    decide +kernel
  obtain ⟨tree, spells⟩ := Option.isSome_iff_exists.mp readable
  have missing : (tree.follow? (hostSteps 1)).isSome = false := by
    rw [← Source.isSome_content? spells]
    decide +kernel
  obtain ⟨count, -, -, ended, entries⟩ := enumeration_entries gap.text
  have few : count ≤ 1 := by
    apply Nat.le_of_not_lt
    intro more
    have there := (entries gap tree rfl spells 1).1.mp more 1 (Nat.le_refl 1)
    exact Bool.false_ne_true (missing.symm.trans there)
  refine ⟨⟨tree, spells⟩, ?_, ?_⟩
  · decide +kernel
  · intro k behind
    exact ended k (Nat.le_trans few behind)

end Candidate
end CoreLocator
