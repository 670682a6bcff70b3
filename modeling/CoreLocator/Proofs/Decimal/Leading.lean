import Mathlib.Data.Nat.Digits.Defs
import CoreLocator.Proofs.Candidate
import CoreLocator.Proofs.Decimal

/-! The number at the start of a text, by its positional value. Every text can be cut where that
number begins and where it ends. What is read is the value of the digits between the cuts, however
many they are, or zero from the word limit on; a port is read where the value is one. -/
namespace CoreLocator.Decimal

/-- Tab, line feed, form feed, carriage return and space. -/
def blankBytes : Bytes := [0x09, 0x0A, 0x0C, 0x0D, 0x20]

def signText (plus : Bool) : Bytes := if plus then [0x2B] else []

/-- A text cut into blanks, at most one plus sign, digits, and what comes behind. None of the first
three could be longer. -/
structure Cut (s : Bytes) where
  blanks : Bytes
  plus : Bool
  digits : List (Fin 10)
  rest : Bytes
  whole : blanks ++ (signText plus ++ (digits.map digitByte ++ rest)) = s
  blank : ∀ b ∈ blanks, b ∈ blankBytes
  visible : ∀ b ∈ (signText plus ++ (digits.map digitByte ++ rest)).head?, b ∉ blankBytes
  unsigned : plus = false → ∀ b ∈ (digits.map digitByte ++ rest).head?, b ≠ 0x2B
  ended : ∀ b ∈ rest.head?, ∀ digit, b ≠ digitByte digit

/-- The digits in the positional system, the last one being that of the ones. -/
def Cut.value {s : Bytes} (cut : Cut s) : Nat := Nat.ofDigits 10 (cut.digits.reverse.map Fin.val)

theorem isSpace_iff {b : UInt8} : Ascii.isSpace b = true ↔ b ∈ blankBytes := by
  simp only [Ascii.isSpace, blankBytes, Bool.or_eq_true, beq_iff_eq, List.mem_cons,
    List.not_mem_nil, or_false]
  tauto

theorem isDigit_iff {b : UInt8} : Ascii.isDigit b = true ↔ ∃ digit, b = digitByte digit := by
  constructor
  · intro inside
    obtain ⟨digits, same⟩ := exists_digits (s := [b]) (by simpa using inside)
    obtain ⟨digit, rfl⟩ := List.length_eq_one_iff.mp ((congrArg List.length same).trans
      (List.length_map _)).symm
    exact ⟨digit, (List.cons.inj same).1⟩
  · rintro ⟨digit, rfl⟩
    exact isDigit_digitByte digit

/-- Taking one digit after the other adds up to the positional value. -/
theorem extend_zero (digits : List (Fin 10)) :
    extend 0 digits = Nat.ofDigits 10 (digits.reverse.map Fin.val) := by
  rw [Nat.ofDigits_eq_foldr, List.foldr_map, List.foldr_reverse, extend]
  congr 1
  funext n digit
  exact Nat.add_comm _ _

section Runs
variable {p : UInt8 → Bool} {front rest : Bytes}

/-- Bytes of a class are cut off whole where the next byte is not of it. -/
theorem cut_run (inside : ∀ b ∈ front, p b = true) (stop : ∀ b ∈ rest.head?, p b = false) :
    (front ++ rest).takeWhile p = front ∧ (front ++ rest).dropWhile p = rest := by
  rw [List.takeWhile_append_of_pos inside, List.dropWhile_append_of_pos inside]
  cases rest with
  | nil => exact ⟨List.append_nil front, rfl⟩
  | cons b rest => simp [stop b rfl]

theorem stop_dropWhile (p : UInt8 → Bool) (s : Bytes) :
    ∀ b ∈ (s.dropWhile p).head?, p b = false := by
  intro b first
  have still := List.head?_dropWhile_not p s
  rw [Option.mem_def.mp first] at still
  simpa using still

end Runs

section Cuts
variable {s : Bytes}

theorem skipPlus_signText {plus : Bool} {t : Bytes}
    (unsigned : plus = false → ∀ b ∈ t.head?, b ≠ 0x2B) : skipPlus (signText plus ++ t) = t := by
  cases plus with
  | true => rfl
  | false =>
    cases t with
    | nil => rfl
    | cons b t => exact if_neg (unsigned rfl b rfl)

theorem exists_sign (t : Bytes) : ∃ plus, signText plus ++ skipPlus t = t ∧
    (plus = false → ∀ b ∈ (skipPlus t).head?, b ≠ 0x2B) := by
  cases t with
  | nil => exact ⟨false, rfl, nofun⟩
  | cons b t =>
    by_cases plus : b = 0x2B
    · exact ⟨true, by rw [skipPlus, if_pos plus, plus]; rfl, nofun⟩
    · refine ⟨false, by rw [skipPlus, if_neg plus]; rfl, ?_⟩
      rw [skipPlus, if_neg plus]
      rintro - _ ⟨⟩
      exact plus

theorem Cut.number_eq (cut : Cut s) : number s = cut.digits.map digitByte := by
  have spaces (b : UInt8) (member : b ∈ cut.blanks) : Ascii.isSpace b = true :=
    isSpace_iff.mpr (cut.blank b member)
  have visible (b : UInt8) (first : b ∈ (signText cut.plus ++ (cut.digits.map digitByte ++
      cut.rest)).head?) : Ascii.isSpace b = false := by
    rw [← Bool.not_eq_true, isSpace_iff]
    exact cut.visible b first
  have inside (b : UInt8) (member : b ∈ cut.digits.map digitByte) : Ascii.isDigit b = true := by
    obtain ⟨digit, -, rfl⟩ := List.mem_map.mp member
    exact isDigit_digitByte digit
  have ended (b : UInt8) (first : b ∈ cut.rest.head?) : Ascii.isDigit b = false := by
    rw [← Bool.not_eq_true, isDigit_iff]
    rintro ⟨digit, same⟩
    exact cut.ended b first digit same
  have signed := (cut_run spaces visible).2
  rw [cut.whole] at signed
  rw [number, signed, skipPlus_signText cut.unsigned, (cut_run inside ended).1]

theorem exists_cut (s : Bytes) : Nonempty (Cut s) := by
  obtain ⟨plus, sign, unsigned⟩ := exists_sign (s.dropWhile Ascii.isSpace)
  obtain ⟨digits, same⟩ := exists_digits fun _ => isDigit_of_mem_number (s := s)
  have parted : digits.map digitByte ++ (skipPlus (s.dropWhile Ascii.isSpace)).dropWhile
      Ascii.isDigit = skipPlus (s.dropWhile Ascii.isSpace) := by
    rw [← same, number]
    exact List.takeWhile_append_dropWhile
  refine ⟨⟨s.takeWhile Ascii.isSpace, plus, digits, _, ?_, ?_, ?_, parted.symm ▸ unsigned, ?_⟩⟩
  · rw [parted, sign]
    exact List.takeWhile_append_dropWhile
  · intro b member
    exact isSpace_iff.mp (List.all_eq_true.mp List.all_takeWhile b member)
  · rw [parted, sign]
    intro b first space
    have visible := stop_dropWhile Ascii.isSpace s b first
    exact Bool.false_ne_true (visible.symm.trans (isSpace_iff.mpr space))
  · rintro b first digit rfl
    have other := stop_dropWhile Ascii.isDigit _ _ first
    exact Bool.false_ne_true (other.symm.trans (isDigit_digitByte digit))

end Cuts

/-- The number that a text starts with is read exactly as long as it is below the word limit, and
as zero otherwise; nothing of a larger one is ever left. It is a port exactly if it is one of the
numbers of ports. -/
theorem leading_exact (s : Bytes) : Nonempty (Cut s) ∧ ∀ cut : Cut s,
    leading s = (if cut.value < 2 ^ 64 then cut.value else 0) ∧
    (∀ port, Candidate.port? s = some port ↔
      port.toNat = cut.value ∧ 1 ≤ cut.value ∧ cut.value ≤ 65535) ∧
    (Candidate.port? s = none ↔ ¬(1 ≤ cut.value ∧ cut.value ≤ 65535)) := by
  refine ⟨exists_cut s, fun cut => ?_⟩
  have read : leading s = if cut.value < 2 ^ 64 then cut.value else 0 := by
    rw [leading_eq, cut.number_eq, value_map_digitByte, extend_zero]
    rfl
  have port (port : UInt16) : Candidate.port? s = some port ↔
      port.toNat = cut.value ∧ 1 ≤ cut.value ∧ cut.value ≤ 65535 := by
    rw [Candidate.port?_eq_some, read]
    split <;> omega
  refine ⟨read, port, ?_⟩
  constructor
  · intro refused range
    have number := UInt16.toNat_ofNat_of_lt' (Nat.lt_succ_of_le range.2)
    have accepted := (port (.ofNat cut.value)).mpr ⟨number, range⟩
    rw [refused] at accepted
    contradiction
  · intro outside
    rw [Option.eq_none_iff_forall_ne_some]
    intro p accepted
    exact outside ((port p).mp accepted).2

example : leading (.ofString "\t +0018446744073709551615;") = 18446744073709551615 ∧
    leading (.ofString "18446744073709551616") = 0 := by decide +kernel

end CoreLocator.Decimal
