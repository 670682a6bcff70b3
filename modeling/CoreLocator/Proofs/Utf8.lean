import Mathlib.Data.List.Basic
import CoreLocator.Utf8

/-! UTF-8 both ways. A byte string is decoded exactly if it is the encoding of some characters, one
after the other, and then as these. -/
namespace CoreLocator.Utf8

/-- The bytes of some characters, one after the other. -/
def encode (chars : List Char) : Bytes := chars.flatMap String.utf8EncodeChar

namespace Pending

/-- What is known behind these further bytes. -/
def finish? (p : Pending) (tail : Bytes) : Option Pending := tail.foldlM next? p

variable {a b c d : UInt8} {p q : Pending} {tail : Bytes}

theorem next?_eq_some : p.next? b = some q ↔ (p.low.toNat ≤ b.toNat ∧ b.toNat ≤ p.high.toNat) ∧
    q = { owed := p.owed - 1, read := p.read + 1, scalar := 64 * p.scalar + (b.toNat - 0x80) } := by
  simp only [next?, Bool.and_eq_true, decide_eq_true_eq, UInt8.le_iff_toNat_le]
  split
  · next inside => simp [inside, eq_comm]
  · next outside => simp [outside]

section First

theorem ofFirst?_one (small : a.toNat < 0x80) :
    ofFirst? a = some { owed := 0, scalar := a.toNat } := by
  have : a < 0x80 := UInt8.lt_iff_toNat_lt.mpr small
  rw [ofFirst?, if_pos this]

theorem ofFirst?_two (low : 0xC2 ≤ a.toNat) (high : a.toNat < 0xE0) :
    ofFirst? a = some { owed := 1, scalar := a.toNat - 0xC0 } := by
  simp only [ofFirst?, UInt8.lt_iff_toNat_lt, UInt8.reduceToNat]
  rw [if_neg (by omega), if_neg (by omega), if_pos high]

theorem ofFirst?_three (low : 0xE0 ≤ a.toNat) (high : a.toNat < 0xF0) :
    ofFirst? a = some
      { owed := 2, low := if a.toNat = 0xE0 then 0xA0 else 0x80,
        high := if a.toNat = 0xED then 0x9F else 0xBF, scalar := a.toNat - 0xE0 } := by
  simp only [ofFirst?, UInt8.lt_iff_toNat_lt, ← UInt8.toNat_inj, UInt8.reduceToNat]
  rw [if_neg (by omega), if_neg (by omega), if_neg (by omega)]
  grind

theorem ofFirst?_four (low : 0xF0 ≤ a.toNat) (high : a.toNat < 0xF5) :
    ofFirst? a = some
      { owed := 3, low := if a.toNat = 0xF0 then 0x90 else 0x80,
        high := if a.toNat = 0xF4 then 0x8F else 0xBF, scalar := a.toNat - 0xF0 } := by
  simp only [ofFirst?, UInt8.lt_iff_toNat_lt, ← UInt8.toNat_inj, UInt8.reduceToNat]
  rw [if_neg (by omega), if_neg (by omega), if_neg (by omega)]
  grind

theorem ofFirst?_none (other : 0x80 ≤ a.toNat ∧ a.toNat < 0xC2 ∨ 0xF5 ≤ a.toNat) :
    ofFirst? a = none := by
  simp only [ofFirst?, UInt8.lt_iff_toNat_lt, ← UInt8.toNat_inj, UInt8.reduceToNat]
  rcases other with continued | high
  · rw [if_neg (by omega), if_pos (by omega)]
  · grind

end First

end Pending

section Characters
variable {n : Nat}

theorem toNat_ofNat (scalar : n < 0xD800 ∨ 0xE000 ≤ n ∧ n < 0x110000) :
    (Char.ofNat n).toNat = n := by
  have valid : n.isValidChar := scalar.imp id fun high => ⟨by omega, high.2⟩
  rw [Char.ofNat, dif_pos valid]
  rfl

theorem encodeChar_one (small : n < 0x80) : String.utf8EncodeChar (Char.ofNat n) = [.ofNat n] := by
  have same : (Char.ofNat n).val.toNat = n := toNat_ofNat (by omega)
  rw [String.utf8EncodeChar, same]
  exact if_pos (by omega)

theorem encodeChar_two (low : 0x80 ≤ n) (high : n < 0x800) :
    String.utf8EncodeChar (Char.ofNat n) = [.ofNat (0xC0 + n / 64), .ofNat (0x80 + n % 64)] := by
  have same : (Char.ofNat n).val.toNat = n := toNat_ofNat (by omega)
  have first : n / 64 % 32 + 192 = 0xC0 + n / 64 := by omega
  rw [String.utf8EncodeChar, same]
  rw [if_neg (by omega), if_pos (by omega), first, Nat.add_comm (n % 64)]

theorem encodeChar_three (low : 0x800 ≤ n) (high : n < 0x10000) (scalar : n < 0xD800 ∨ 0xE000 ≤ n) :
    String.utf8EncodeChar (Char.ofNat n) =
      [.ofNat (0xE0 + n / 4096), .ofNat (0x80 + n / 64 % 64), .ofNat (0x80 + n % 64)] := by
  have same : (Char.ofNat n).val.toNat = n := toNat_ofNat (by omega)
  have first : n / 4096 % 16 + 224 = 0xE0 + n / 4096 := by omega
  rw [String.utf8EncodeChar, same]
  rw [if_neg (by omega), if_neg (by omega), if_pos (by omega), first, Nat.add_comm (n % 64),
    Nat.add_comm (n / 64 % 64)]

theorem encodeChar_four (low : 0x10000 ≤ n) (high : n < 0x110000) :
    String.utf8EncodeChar (Char.ofNat n) =
      [.ofNat (0xF0 + n / 262144), .ofNat (0x80 + n / 4096 % 64), .ofNat (0x80 + n / 64 % 64),
        .ofNat (0x80 + n % 64)] := by
  have same : (Char.ofNat n).val.toNat = n := toNat_ofNat (by omega)
  have first : n / 262144 % 8 + 240 = 0xF0 + n / 262144 := by omega
  rw [String.utf8EncodeChar, same]
  rw [if_neg (by omega), if_neg (by omega), if_neg (by omega), first, Nat.add_comm (n % 64),
    Nat.add_comm (n / 64 % 64), Nat.add_comm (n / 4096 % 64)]

end Characters

section Whole
variable {a : UInt8} {p q : Pending} {tail : Bytes}

theorem eq_ofNat {n : Nat} (same : n = a.toNat) : UInt8.ofNat n = a := by
  rw [same, UInt8.ofNat_toNat]

theorem encodeChar_of_two (first : 0xC2 ≤ a.toNat ∧ a.toNat < 0xE0) (length : tail.length = 1)
    (rest : Pending.finish? { owed := 1, scalar := a.toNat - 0xC0 } tail = some q) :
    String.utf8EncodeChar (Char.ofNat q.scalar) = a :: tail := by
  obtain ⟨b, rfl⟩ := List.length_eq_one_iff.mp length
  simp only [Pending.finish?, List.foldlM_cons, List.foldlM_nil, Option.bind_eq_bind,
    Option.bind_eq_some_iff, Pending.next?_eq_some] at rest
  obtain ⟨_, ⟨range, rfl⟩, same⟩ := rest
  obtain rfl := Option.some.inj same
  simp only [UInt8.reduceToNat] at range
  dsimp only
  rw [encodeChar_two (by omega) (by omega), eq_ofNat (a := a) (by omega),
    eq_ofNat (a := b) (by omega)]

theorem encodeChar_of_three (first : 0xE0 ≤ a.toNat ∧ a.toNat < 0xF0) (length : tail.length = 2)
    (rest : Pending.finish?
      { owed := 2, low := if a.toNat = 0xE0 then 0xA0 else 0x80,
        high := if a.toNat = 0xED then 0x9F else 0xBF, scalar := a.toNat - 0xE0 } tail = some q) :
    String.utf8EncodeChar (Char.ofNat q.scalar) = a :: tail := by
  obtain ⟨b, c, rfl⟩ := List.length_eq_two.mp length
  simp only [Pending.finish?, List.foldlM_cons, List.foldlM_nil, Option.bind_eq_bind,
    Option.bind_eq_some_iff, Pending.next?_eq_some] at rest
  obtain ⟨_, ⟨range, rfl⟩, _, ⟨range', rfl⟩, same⟩ := rest
  obtain rfl := Option.some.inj same
  simp only [apply_ite, UInt8.reduceToNat] at range range'
  have bounds : 0x80 ≤ b.toNat ∧ b.toNat ≤ 0xBF ∧ (a.toNat = 0xE0 → 0xA0 ≤ b.toNat) ∧
      (a.toNat = 0xED → b.toNat ≤ 0x9F) := by
    grind
  dsimp only
  rw [encodeChar_three (by omega) (by omega) (by omega), eq_ofNat (a := a) (by omega),
    eq_ofNat (a := b) (by omega), eq_ofNat (a := c) (by omega)]

theorem encodeChar_of_four (first : 0xF0 ≤ a.toNat ∧ a.toNat < 0xF5) (length : tail.length = 3)
    (rest : Pending.finish?
      { owed := 3, low := if a.toNat = 0xF0 then 0x90 else 0x80,
        high := if a.toNat = 0xF4 then 0x8F else 0xBF, scalar := a.toNat - 0xF0 } tail = some q) :
    String.utf8EncodeChar (Char.ofNat q.scalar) = a :: tail := by
  obtain ⟨b, c, d, rfl⟩ := List.length_eq_three.mp length
  simp only [Pending.finish?, List.foldlM_cons, List.foldlM_nil, Option.bind_eq_bind,
    Option.bind_eq_some_iff, Pending.next?_eq_some] at rest
  obtain ⟨_, ⟨range, rfl⟩, _, ⟨range', rfl⟩, _, ⟨range'', rfl⟩, same⟩ := rest
  obtain rfl := Option.some.inj same
  simp only [apply_ite, UInt8.reduceToNat] at range range' range''
  have bounds : 0x80 ≤ b.toNat ∧ b.toNat ≤ 0xBF ∧ (a.toNat = 0xF0 → 0x90 ≤ b.toNat) ∧
      (a.toNat = 0xF4 → b.toNat ≤ 0x8F) := by
    grind
  dsimp only
  rw [encodeChar_four (by omega) (by omega), eq_ofNat (a := a) (by omega),
    eq_ofNat (a := b) (by omega), eq_ofNat (a := c) (by omega), eq_ofNat (a := d) (by omega)]

/-- Only a character's own encoding is taken for it. -/
theorem encodeChar_of_finish (first : Pending.ofFirst? a = some p)
    (rest : p.finish? tail = some q) (length : tail.length = p.owed) :
    String.utf8EncodeChar (Char.ofNat q.scalar) = a :: tail := by
  by_cases one : a.toNat < 0x80
  · obtain rfl := Option.some.inj ((Pending.ofFirst?_one one).symm.trans first)
    obtain rfl := List.length_eq_zero_iff.mp length
    obtain rfl := Option.some.inj rest
    rw [encodeChar_one one, UInt8.ofNat_toNat]
  by_cases two : 0xC2 ≤ a.toNat ∧ a.toNat < 0xE0
  · obtain rfl := Option.some.inj ((Pending.ofFirst?_two two.1 two.2).symm.trans first)
    exact encodeChar_of_two two length rest
  by_cases three : 0xE0 ≤ a.toNat ∧ a.toNat < 0xF0
  · obtain rfl := Option.some.inj ((Pending.ofFirst?_three three.1 three.2).symm.trans first)
    exact encodeChar_of_three three length rest
  by_cases four : 0xF0 ≤ a.toNat ∧ a.toNat < 0xF5
  · obtain rfl := Option.some.inj ((Pending.ofFirst?_four four.1 four.2).symm.trans first)
    exact encodeChar_of_four four length rest
  rw [Pending.ofFirst?_none (by omega)] at first
  contradiction

end Whole

section Reading
variable {s : Bytes} {n index : Nat} {char : Char} {chars : List Char}

theorem toNat_byte (small : n < 0x100) : (UInt8.ofNat n).toNat = n := by
  rw [UInt8.toNat_ofNat']
  exact Nat.mod_eq_of_lt small

theorem finish?_cons {p : Pending} (low : p.low.toNat ≤ 0x80 + n) (high : 0x80 + n ≤ p.high.toNat)
    (tail : Bytes) : p.finish? (.ofNat (0x80 + n) :: tail) = Pending.finish?
      { owed := p.owed - 1, read := p.read + 1, scalar := 64 * p.scalar + n } tail := by
  have byte : (UInt8.ofNat (0x80 + n)).toNat = 0x80 + n :=
    toNat_byte (Nat.lt_of_le_of_lt high p.high.toNat_lt)
  have next : p.next? (.ofNat (0x80 + n)) = some _ :=
    Pending.next?_eq_some.mpr ⟨by rw [byte]; exact ⟨low, high⟩, rfl⟩
  rw [byte, Nat.add_sub_cancel_left] at next
  rw [Pending.finish?, List.foldlM_cons, next]
  rfl

/-- These bytes are taken for one character. -/
def Reads (char : Char) (a : UInt8) (tail : Bytes) : Prop :=
  ∃ p q, Pending.ofFirst? a = some p ∧ p.finish? tail = some q ∧ tail.length = p.owed ∧
    q.scalar = char.toNat

/-- The encoding of the character of this number is taken for it. -/
def Readable (n : Nat) : Prop :=
  ∃ a tail, String.utf8EncodeChar (Char.ofNat n) = a :: tail ∧ Reads (Char.ofNat n) a tail

theorem readable_one (small : n < 0x80) : Readable n := by
  have byte : (UInt8.ofNat n).toNat = n := toNat_byte (by omega)
  rw [Readable, encodeChar_one small]
  refine ⟨_, _, rfl, _, _, Pending.ofFirst?_one (by omega), rfl, rfl, ?_⟩
  rw [byte, toNat_ofNat (by omega)]

theorem readable_two (low : 0x80 ≤ n) (high : n < 0x800) : Readable n := by
  have byte : (UInt8.ofNat (0xC0 + n / 64)).toNat = 0xC0 + n / 64 := toNat_byte (by omega)
  rw [Readable, encodeChar_two low high]
  refine ⟨_, _, rfl, _, _, Pending.ofFirst?_two (by omega) (by omega),
    finish?_cons ?_ ?_ [], rfl, ?_⟩
  · simp
  · simp; omega
  · rw [byte, toNat_ofNat (by omega)]
    dsimp only
    omega

theorem readable_three (low : 0x800 ≤ n) (high : n < 0x10000)
    (scalar : n < 0xD800 ∨ 0xE000 ≤ n) : Readable n := by
  have byte : (UInt8.ofNat (0xE0 + n / 4096)).toNat = 0xE0 + n / 4096 := toNat_byte (by omega)
  rw [Readable, encodeChar_three low high scalar]
  refine ⟨_, _, rfl, _, _, Pending.ofFirst?_three (by omega) (by omega),
    (finish?_cons ?_ ?_ _).trans (finish?_cons ?_ ?_ []), rfl, ?_⟩
  · simp only [byte, apply_ite, UInt8.reduceToNat]
    split <;> omega
  · simp only [byte, apply_ite, UInt8.reduceToNat]
    split <;> omega
  · simp
  · simp; omega
  · rw [byte, toNat_ofNat (by omega)]
    dsimp only
    omega

theorem readable_four (low : 0x10000 ≤ n) (high : n < 0x110000) : Readable n := by
  have byte : (UInt8.ofNat (0xF0 + n / 262144)).toNat = 0xF0 + n / 262144 := toNat_byte (by omega)
  rw [Readable, encodeChar_four low high]
  refine ⟨_, _, rfl, _, _, Pending.ofFirst?_four (by omega) (by omega),
    (finish?_cons ?_ ?_ _).trans ((finish?_cons ?_ ?_ _).trans (finish?_cons ?_ ?_ [])), rfl, ?_⟩
  · simp only [byte, apply_ite, UInt8.reduceToNat]
    split <;> omega
  · simp only [byte, apply_ite, UInt8.reduceToNat]
    split <;> omega
  · simp
  · simp; omega
  · simp
  · simp; omega
  · rw [byte, toNat_ofNat (by omega)]
    dsimp only
    omega

/-- Every character is read from its encoding. -/
theorem reads_encodeChar (char : Char) : ∃ a tail,
    String.utf8EncodeChar char = a :: tail ∧ Reads char a tail := by
  have scalar := char.valid
  rw [← Char.ofNat_toNat char]
  change Readable char.toNat
  change char.toNat.isValidChar at scalar
  generalize char.toNat = n at scalar ⊢
  obtain ⟨valid, below⟩ : (n < 0xD800 ∨ 0xE000 ≤ n) ∧ n < 0x110000 := by
    rcases scalar with low | high <;> omega
  by_cases one : n < 0x80
  · exact readable_one one
  by_cases two : n < 0x800
  · exact readable_two (by omega) two
  by_cases three : n < 0x10000
  · exact readable_three (by omega) three valid
  · exact readable_four (by omega) below

/-- A character can be told from the start of a text, and what comes behind it as well. -/
theorem encodeChar_append_inj {other : Char} {t : Bytes}
    (same : String.utf8EncodeChar char ++ s = String.utf8EncodeChar other ++ t) :
    char = other ∧ s = t := by
  obtain ⟨a, tail, written, p, q, known, finished, length, scalar⟩ := reads_encodeChar char
  obtain ⟨b, tail', written', p', q', known', finished', length', scalar'⟩ :=
    reads_encodeChar other
  rw [written, written', List.cons_append, List.cons_append] at same
  obtain ⟨rfl, rest⟩ := List.cons.inj same
  obtain rfl : p = p' := Option.some.inj (known.symm.trans known')
  obtain ⟨rfl, behind⟩ := List.append_inj rest (length.trans length'.symm)
  obtain rfl : q = q' := Option.some.inj (finished.symm.trans finished')
  exact ⟨Char.toNat_inj.mp (scalar.symm.trans scalar'), behind⟩

end Reading

section Decoding
variable {s tail : Bytes} {index : Nat} {p q : Pending} {chars : List Char}

theorem decodeFrom_first {b : UInt8} (known : Pending.ofFirst? b = some p) :
    decodeFrom index none (b :: s) =
      if p.owed = 0 then (decodeFrom (index + p.read) none s).map (Char.ofNat p.scalar :: ·)
      else decodeFrom index (some p) s := by
  rw [decodeFrom]
  simp only [known]

theorem decodeFrom_next {b : UInt8} {next : Pending} (known : p.next? b = some next) :
    decodeFrom index (some p) (b :: s) =
      if next.owed = 0 then
        (decodeFrom (index + next.read) none s).map (Char.ofNat next.scalar :: ·)
      else decodeFrom index (some next) s := by
  rw [decodeFrom]
  simp only [known]

theorem ok_of_map {char : Char} {read : Except Fault (List Char)}
    (mapped : read.map (char :: ·) = .ok chars) :
    ∃ later, read = .ok later ∧ chars = char :: later := by
  cases read with
  | error fault => contradiction
  | ok later => exact ⟨later, rfl, (Except.ok.inj mapped).symm⟩

/-- The rest of a character is read, and then what stands behind it. -/
theorem decodeFrom_finish (rest : p.finish? tail = some q) (length : tail.length = p.owed)
    (owing : p.owed ≠ 0) : decodeFrom index (some p) (tail ++ s) =
      (decodeFrom (index + q.read) none s).map (Char.ofNat q.scalar :: ·) := by
  induction tail generalizing p with
  | nil => exact absurd length.symm owing
  | cons b tail ih =>
    obtain ⟨next, known, rest⟩ := Option.bind_eq_some_iff.mp rest
    have owed : tail.length = next.owed := by
      obtain ⟨-, rfl⟩ := Pending.next?_eq_some.mp known
      rw [← length]
      rfl
    rw [List.cons_append, decodeFrom_next known]
    cases tail with
    | nil =>
      obtain rfl := Option.some.inj rest
      have last : next.owed = 0 := owed.symm
      rw [if_pos last]
      rfl
    | cons c tail =>
      have owing : next.owed ≠ 0 := by rw [← owed]; exact Nat.succ_ne_zero _
      rw [if_neg owing]
      exact ih rest owed owing

theorem decodeFrom_encodeChar (char : Char) (index : Nat) (s : Bytes) : ∃ later,
    decodeFrom index none (String.utf8EncodeChar char ++ s) =
      (decodeFrom later none s).map (char :: ·) := by
  obtain ⟨a, tail, same, p, q, first, rest, length, scalar⟩ := reads_encodeChar char
  have read : Char.ofNat q.scalar = char := by rw [scalar, Char.ofNat_toNat]
  rw [same, List.cons_append, decodeFrom_first first, ← read]
  cases tail with
  | nil =>
    obtain rfl := Option.some.inj rest
    have alone : p.owed = 0 := length.symm
    rw [if_pos alone]
    exact ⟨_, rfl⟩
  | cons b tail =>
    have owing : p.owed ≠ 0 := by rw [← length]; exact Nat.succ_ne_zero _
    rw [if_neg owing]
    exact ⟨_, decodeFrom_finish rest length owing⟩

theorem decodeFrom_append (chars : List Char) (index : Nat) (t : Bytes) : ∃ later,
    decodeFrom index none (encode chars ++ t) = (decodeFrom later none t).map (chars ++ ·) := by
  induction chars generalizing index with
  | nil =>
    refine ⟨index, ?_⟩
    rw [encode, List.flatMap_nil, List.nil_append]
    cases decodeFrom index none t <;> rfl
  | cons char chars ih =>
    obtain ⟨middle, one⟩ := decodeFrom_encodeChar char index (encode chars ++ t)
    obtain ⟨later, more⟩ := ih middle
    refine ⟨later, ?_⟩
    rw [encode, List.flatMap_cons, List.append_assoc, ← encode, one, more]
    cases decodeFrom later none t <;> rfl

theorem decodeFrom_encode (chars : List Char) (index : Nat) :
    decodeFrom index none (encode chars) = .ok chars := by
  obtain ⟨later, read⟩ := decodeFrom_append chars index []
  rw [List.append_nil, decodeFrom] at read
  rw [read]
  exact congrArg Except.ok (List.append_nil chars)

/-- A character that has begun is read to its end. -/
theorem finish_of_decodeFrom (read : decodeFrom index (some p) s = .ok chars) (owing : p.owed ≠ 0) :
    ∃ tail rest q later, s = tail ++ rest ∧ p.finish? tail = some q ∧ tail.length = p.owed ∧
      chars = Char.ofNat q.scalar :: later ∧
      decodeFrom (index + q.read) none rest = .ok later := by
  induction s generalizing p with
  | nil => rw [decodeFrom] at read; contradiction
  | cons b s ih =>
    cases known : p.next? b with
    | none => simp only [decodeFrom, known] at read; contradiction
    | some next =>
      have owed : next.owed + 1 = p.owed := by
        obtain ⟨-, rfl⟩ := Pending.next?_eq_some.mp known
        exact Nat.succ_pred_eq_of_ne_zero owing
      rw [decodeFrom_next known] at read
      split at read
      · next last =>
        obtain ⟨later, behind, same⟩ := ok_of_map read
        refine ⟨[b], s, next, later, rfl, ?_, ?_, same, behind⟩
        · rw [Pending.finish?, List.foldlM_cons, known]
          rfl
        · rw [← owed, last]
          rfl
      · next owing =>
        obtain ⟨tail, rest, q, later, rfl, finished, length, same, behind⟩ := ih read owing
        refine ⟨b :: tail, rest, q, later, rfl, ?_, ?_, same, behind⟩
        · rw [Pending.finish?, List.foldlM_cons, known]
          exact finished
        · rw [List.length_cons, length, owed]

theorem encodeChar_of_decodeFrom {b : UInt8} (read : decodeFrom index none (b :: s) = .ok chars) :
    ∃ char rest later index, b :: s = String.utf8EncodeChar char ++ rest ∧ chars = char :: later ∧
      decodeFrom index none rest = .ok later := by
  cases known : Pending.ofFirst? b with
  | none => simp only [decodeFrom, known] at read; contradiction
  | some p =>
    rw [decodeFrom_first known] at read
    split at read
    · next alone =>
      obtain ⟨later, behind, same⟩ := ok_of_map read
      have finished : p.finish? [] = some p := rfl
      have encoded := encodeChar_of_finish known finished alone.symm
      exact ⟨_, s, later, _, by rw [encoded]; rfl, same, behind⟩
    · next owing =>
      obtain ⟨tail, rest, q, later, rfl, finished, length, same, behind⟩ :=
        finish_of_decodeFrom read owing
      have encoded := encodeChar_of_finish known finished length
      exact ⟨_, rest, later, _, by rw [encoded]; rfl, same, behind⟩

theorem eq_encode_of_decodeFrom (read : decodeFrom index none s = .ok chars) :
    s = encode chars := by
  induction chars generalizing s index with
  | nil =>
    cases s with
    | nil => rfl
    | cons b s =>
      obtain ⟨char, rest, later, index, -, same, -⟩ := encodeChar_of_decodeFrom read
      contradiction
  | cons char chars ih =>
    cases s with
    | nil =>
      rw [decodeFrom] at read
      exact absurd (Except.ok.inj read) (List.cons_ne_nil char chars).symm
    | cons b s =>
      obtain ⟨first, rest, later, index, whole, same, behind⟩ := encodeChar_of_decodeFrom read
      obtain ⟨rfl, rfl⟩ := List.cons.inj same
      rw [whole, ih behind]
      rfl

/-- Exactly the encodings are decoded. -/
theorem decode_eq_ok : decode s = .ok chars ↔ s = encode chars := by
  constructor
  · exact eq_encode_of_decodeFrom
  · rintro rfl
    exact decodeFrom_encode chars 0

end Decoding

section Texts
variable {s t : Bytes} {chars : List Char}

/-- The bytes of a text. -/
def IsText (s : Bytes) : Prop := ∃ chars, s = encode chars

theorem isText_iff : IsText s ↔ ∃ chars, decode s = .ok chars :=
  exists_congr fun _ => decode_eq_ok.symm

theorem encode_append (chars more : List Char) :
    encode (chars ++ more) = encode chars ++ encode more :=
  List.flatMap_append

theorem isText_encode (chars : List Char) : IsText (encode chars) := ⟨chars, rfl⟩

theorem isText_encodeChar (char : Char) : IsText (String.utf8EncodeChar char) :=
  ⟨[char], (List.append_nil _).symm⟩

theorem IsText.append (first : IsText s) (last : IsText t) : IsText (s ++ t) := by
  obtain ⟨chars, rfl⟩ := first
  obtain ⟨more, rfl⟩ := last
  exact ⟨chars ++ more, (encode_append chars more).symm⟩

/-- What follows a text in a text is one itself. -/
theorem IsText.of_append (first : IsText s) (whole : IsText (s ++ t)) : IsText t := by
  obtain ⟨chars, rfl⟩ := first
  obtain ⟨all, read⟩ := isText_iff.mp whole
  obtain ⟨later, same⟩ := decodeFrom_append chars 0 t
  rw [decode, same] at read
  cases rest : decodeFrom later none t with
  | error fault => rw [rest] at read; contradiction
  | ok more => exact ⟨more, eq_encode_of_decodeFrom rest⟩

theorem isText_ascii (ascii : ∀ b ∈ s, b.toNat < 0x80) : IsText s := by
  induction s with
  | nil => exact ⟨[], rfl⟩
  | cons b s ih =>
    have small := ascii b List.mem_cons_self
    have alone : IsText [b] := by
      rw [← UInt8.ofNat_toNat (x := b), ← encodeChar_one small]
      exact isText_encodeChar _
    exact alone.append (ih fun c member => ascii c (List.mem_cons_of_mem b member))

/-- A byte below 0x80 is a character of its own. -/
theorem encodeChar_of_ascii {b : UInt8} {char : Char}
    (member : b ∈ String.utf8EncodeChar char) (ascii : b.toNat < 0x80) :
    String.utf8EncodeChar char = [b] := by
  have scalar : char.val.toNat < 0x110000 := by
    rcases char.valid with low | high
    · exact Nat.lt_trans low (by decide)
    · exact high.2
  have inner {n : Nat} (high : 0x80 ≤ n) (byte : n < 0x100) : b ≠ UInt8.ofNat n := by
    rintro rfl
    rw [toNat_byte byte] at ascii
    omega
  unfold String.utf8EncodeChar at member ⊢
  dsimp only at member ⊢
  split at member
  · next small =>
    rw [if_pos small, List.mem_singleton.mp member]
  split at member
  · simp only [List.mem_cons, List.not_mem_nil, or_false] at member
    rcases member with first | last
    · exact absurd first (inner (by omega) (by omega))
    · exact absurd last (inner (by omega) (by omega))
  split at member
  · simp only [List.mem_cons, List.not_mem_nil, or_false] at member
    rcases member with first | middle | last
    · exact absurd first (inner (by omega) (by omega))
    · exact absurd middle (inner (by omega) (by omega))
    · exact absurd last (inner (by omega) (by omega))
  · simp only [List.mem_cons, List.not_mem_nil, or_false] at member
    rcases member with first | second | third | last
    · exact absurd first (inner (by omega) (by omega))
    · exact absurd second (inner (by omega) (by omega))
    · exact absurd third (inner (by omega) (by omega))
    · exact absurd last (inner (by omega) (by omega))

theorem encode_inj {more : List Char} : encode chars = encode more ↔ chars = more := by
  constructor
  · intro same
    have first := decode_eq_ok.mpr same
    have second := decode_eq_ok.mpr (Eq.refl (encode chars))
    exact Except.ok.inj (second.symm.trans first)
  · exact congrArg encode

/-- A byte below 0x80 comes from its own character. -/
theorem mem_of_ascii {b : UInt8} {text : String} (member : b ∈ Bytes.ofString text)
    (ascii : b.toNat < 0x80) : Char.ofNat b.toNat ∈ text.toList := by
  obtain ⟨char, inside, byte⟩ := List.mem_flatMap.mp member
  have alone : encode [char] = encode [Char.ofNat b.toNat] := by
    simp only [encode, List.flatMap_singleton]
    rw [encodeChar_of_ascii byte ascii, encodeChar_one ascii, UInt8.ofNat_toNat]
  exact List.singleton_inj.mp (encode_inj.mp alone) ▸ inside

/-- What stands before such a byte in a text is one itself. -/
theorem IsText.before_ascii {b : UInt8} (ascii : b.toNat < 0x80) (text : IsText (s ++ b :: t)) :
    IsText s := by
  obtain ⟨chars, same⟩ := text
  induction chars generalizing s with
  | nil => simp [encode] at same
  | cons char chars ih =>
    rw [encode, List.flatMap_cons] at same
    rcases List.append_eq_append_iff.mp same with ⟨rest, whole, behind⟩ | ⟨rest, rfl, behind⟩
    · cases rest with
      | nil =>
        rw [List.append_nil] at whole
        exact whole ▸ isText_encodeChar char
      | cons c rest =>
        obtain ⟨rfl, -⟩ := List.cons.inj behind
        have alone := encodeChar_of_ascii (whole ▸ List.mem_append_right s List.mem_cons_self) ascii
        rw [alone] at whole
        have empty : s = [] := by
          have count := congrArg List.length whole
          simp only [List.length_append, List.length_cons, List.length_nil] at count
          exact List.length_eq_zero_iff.mp (by omega)
        exact empty ▸ isText_encode []
    · exact (isText_encodeChar char).append (ih behind.symm)

/-- A text starts with a whole character. -/
theorem IsText.exists_cons {b : UInt8} (text : IsText (b :: s)) : ∃ char rest,
    b :: s = String.utf8EncodeChar char ++ rest ∧ IsText rest := by
  obtain ⟨chars, same⟩ := text
  cases chars with
  | nil => contradiction
  | cons char chars => exact ⟨char, encode chars, same, isText_encode chars⟩

theorem text_encode (chars : List Char) : text (encode chars) = String.ofList chars := by
  rw [text, text?, decode_eq_ok.mpr rfl]
  rfl

/-- A text keeps its bytes. -/
theorem ofString_text {s : Bytes} (isText : IsText s) : Bytes.ofString (text s) = s := by
  obtain ⟨chars, rfl⟩ := isText
  rw [text_encode, Bytes.ofString, String.toList_ofList]
  rfl

theorem ofString_inj {a b : String} : Bytes.ofString a = Bytes.ofString b ↔ a = b := by
  constructor
  · exact fun same => String.toList_inj.mp (encode_inj.mp same)
  · exact congrArg Bytes.ofString

/-- Exactly the bytes of a text are read as that text. -/
theorem text?_eq_some {text : String} : text? s = some text ↔ s = .ofString text := by
  constructor
  · intro read
    obtain ⟨chars, decoded, rfl⟩ := Option.map_eq_some_iff.mp read
    cases whole : decode s with
    | error fault => rw [whole] at decoded; contradiction
    | ok read =>
      rw [whole] at decoded
      obtain rfl := Option.some.inj decoded
      rw [Bytes.ofString, String.toList_ofList]
      exact decode_eq_ok.mp whole
  · rintro rfl
    have decoded : decode (Bytes.ofString text) = .ok text.toList := decode_eq_ok.mpr rfl
    rw [text?, decoded]
    exact congrArg some String.ofList_toList

/-- What is a text is read as one, and that keeps its bytes. -/
theorem IsText.exists_text (isText : IsText s) :
    ∃ text, text? s = some text ∧ Bytes.ofString text = s := by
  obtain ⟨chars, rfl⟩ := isText
  refine ⟨String.ofList chars, ?_, ?_⟩
  · rw [text?, decode_eq_ok.mpr rfl]
    rfl
  · rw [Bytes.ofString, String.toList_ofList]
    rfl

end Texts
end CoreLocator.Utf8
