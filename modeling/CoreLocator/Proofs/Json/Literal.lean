import CoreLocator.Proofs.Json.Skim
import CoreLocator.Proofs.Utf8

/-! Decoding a literal whose escapes are well formed gives the string that it denotes. -/
namespace CoreLocator.Json

section Units

/-- Surrogates stand for no character by themselves. -/
theorem scalar_char (c : Char) :
    c.toNat < 0xD800 ∨ 0xE000 ≤ c.toNat ∧ c.toNat < 0x110000 := by
  rcases c.valid with low | high
  · exact .inl low
  · exact .inr ⟨high.1, high.2⟩

theorem chars?_scalar {n : Nat} (scalar : n < 0xD800 ∨ 0xE000 ≤ n) (units : List Nat) :
    Literal.chars? (n :: units) = (Literal.chars? units).map (Char.ofNat n :: ·) := by
  rw [Literal.chars?.eq_def]
  dsimp only
  rw [if_neg (by omega), if_neg (by omega)]

theorem chars?_pair {n m : Nat} (leading : 0xD800 ≤ n ∧ n < 0xDC00)
    (trailing : 0xDC00 ≤ m ∧ m < 0xE000) (units : List Nat) :
    Literal.chars? (n :: m :: units) = (Literal.chars? units).map
      (Char.ofNat (0x10000 + (n - 0xD800) * 0x400 + (m - 0xDC00)) :: ·) := by
  rw [Literal.chars?.eq_def]
  dsimp only
  rw [if_pos leading, if_pos trailing]

/-- A character is found again from its code units. -/
theorem chars?_codeUnits (c : Char) (units : List Nat) :
    Literal.chars? (codeUnits c ++ units) = (Literal.chars? units).map (c :: ·) := by
  have scalar := scalar_char c
  unfold codeUnits
  split
  · next small =>
    rw [List.singleton_append, chars?_scalar (by omega), Char.ofNat_toNat]
  · next large =>
    have same : 0x10000 + (0xD800 + (c.toNat - 0x10000) / 0x400 - 0xD800) * 0x400 +
        (0xDC00 + (c.toNat - 0x10000) % 0x400 - 0xDC00) = c.toNat := by
      omega
    rw [List.cons_append, List.singleton_append, chars?_pair (by omega) (by omega), same,
      Char.ofNat_toNat]

/-- Code units that denote characters start with one that is no surrogate, or with a pair. -/
theorem chars?_cons {n : Nat} {units : List Nat} {chars : List Char}
    (denoted : Literal.chars? (n :: units) = some chars) :
    (n < 0xD800 ∨ 0xE000 ≤ n) ∧
      (∃ later, Literal.chars? units = some later ∧ chars = Char.ofNat n :: later) ∨
    (0xD800 ≤ n ∧ n < 0xDC00) ∧ ∃ m rest later, units = m :: rest ∧ (0xDC00 ≤ m ∧ m < 0xE000) ∧
      Literal.chars? rest = some later ∧
      chars = Char.ofNat (0x10000 + (n - 0xD800) * 0x400 + (m - 0xDC00)) :: later := by
  by_cases scalar : n < 0xD800 ∨ 0xE000 ≤ n
  · rw [chars?_scalar scalar] at denoted
    obtain ⟨later, found, same⟩ := Option.map_eq_some_iff.mp denoted
    exact .inl ⟨scalar, later, found, same.symm⟩
  · rw [Literal.chars?.eq_def] at denoted
    dsimp only at denoted
    split at denoted
    · next leading =>
      cases units with
      | nil => contradiction
      | cons m rest =>
        dsimp only at denoted
        split at denoted
        · next trailing =>
          obtain ⟨later, found, same⟩ := Option.map_eq_some_iff.mp denoted
          exact .inr ⟨leading, m, rest, later, rfl, trailing, found, same.symm⟩
        · contradiction
    · rw [if_pos (by omega)] at denoted
      contradiction

theorem codeUnits_head (c : Char) :
    ∃ n units, codeUnits c = n :: units ∧ ¬(0xDC00 ≤ n ∧ n < 0xE000) := by
  have scalar := scalar_char c
  unfold codeUnits
  split
  · exact ⟨_, _, rfl, by omega⟩
  · exact ⟨_, _, rfl, by omega⟩

/-- The second half of a pair is always written by its number. -/
theorem trailing_unit {literal : Literal} {m : Nat} {units : List Nat}
    (trails : 0xDC00 ≤ m ∧ m < 0xE000) (spelled : literal.units = m :: units) :
    ∃ a b c d rest, literal = .unit a b c d :: rest ∧ units = Literal.units rest ∧
      m = ((a.value * 16 + b.value) * 16 + c.value) * 16 + d.value := by
  have other (char : Char) (later : List Nat) : codeUnits char ++ later ≠ m :: units := by
    obtain ⟨n, more, same, no⟩ := codeUnits_head char
    rw [same, List.cons_append]
    intro equal
    rw [(List.cons.inj equal).1] at no
    exact no trails
  cases literal with
  | nil => contradiction
  | cons piece rest =>
    cases piece with
    | plain char unescaped => exact absurd spelled (other char _)
    | letter letter => exact absurd spelled (other letter.char _)
    | unit a b c d =>
      obtain ⟨same, rfl⟩ := List.cons.inj spelled
      exact ⟨a, b, c, d, rest, rfl, rfl, same.symm⟩

end Units

section Reading
variable {s t content decoded rest : Bytes}

theorem readString_inString {bytes : Bytes} (inside : ∀ b ∈ bytes, InString b)
    (read : readString s = .ok (content, rest)) :
    readString (bytes ++ s) = .ok (bytes ++ content, rest) := by
  induction bytes with
  | nil => exact read
  | cons b bytes ih =>
    obtain ⟨quote, backslash, visible⟩ := inside b List.mem_cons_self
    have inside' (b : UInt8) (member : b ∈ bytes) : InString b :=
      inside b (List.mem_cons_of_mem _ member)
    have later := ih inside'
    rw [List.cons_append, readString, if_neg quote, if_neg backslash, if_neg visible, later]
    rfl

theorem readString_escape (escape : readEscape s = .ok (decoded, t))
    (read : readString t = .ok (content, rest)) :
    readString (0x5C :: s) = .ok (decoded ++ content, rest) := by
  rw [readString, if_neg (by decide), if_pos rfl]
  split
  · next refused => rw [escape] at refused; contradiction
  · next same =>
    obtain ⟨rfl, rfl⟩ := Prod.mk.inj (Except.ok.inj (escape.symm.trans same))
    rw [read]

theorem readEscape_letter (letter : Letter) (s : Bytes) :
    readEscape (letter.byte :: s) = .ok (String.utf8EncodeChar letter.char, s) := by
  obtain ⟨decoded, simple, same⟩ := simpleEscape?_byte letter
  rw [readEscape, if_neg (letter_byte_ne letter), simple, same]

theorem readUnicode_scalar {n : Nat} (word : hexWord s = .ok (n, t))
    (scalar : n < 0xD800 ∨ 0xE000 ≤ n) : readUnicode s = .ok (n, t) := by
  have trailing : isTrailingSurrogate n = false := by simp [isTrailingSurrogate]; omega
  have leading : isLeadingSurrogate n = false := by simp [isLeadingSurrogate]; omega
  rw [readUnicode, word]
  dsimp only
  rw [trailing, leading]
  rfl

theorem readUnicode_pair {n m : Nat} (first : hexWord s = .ok (n, 0x5C :: 0x75 :: t))
    (second : hexWord t = .ok (m, rest)) (leads : 0xD800 ≤ n ∧ n < 0xDC00)
    (trails : 0xDC00 ≤ m ∧ m < 0xE000) : readUnicode s =
      .ok (0x10000 + (n - 0xD800) * 0x400 + (m - 0xDC00), rest) := by
  have single : isTrailingSurrogate n = false := by simp [isTrailingSurrogate]; omega
  have leading : isLeadingSurrogate n = true := by simp [isLeadingSurrogate]; omega
  have trailing : isTrailingSurrogate m = true := by simp [isTrailingSurrogate]; omega
  have same : pairedScalar n m = 0x10000 + (n - 0xD800) * 0x400 + (m - 0xDC00) := by
    rw [pairedScalar]
    omega
  rw [readUnicode, first]
  dsimp only
  rw [single, leading, ← same]
  simp only [Bool.false_eq_true, if_false, if_true, readTrailing, expectPairing, second, trailing]

theorem readEscape_unicode {n : Nat} (read : readUnicode s = .ok (n, t)) :
    readEscape (0x75 :: s) = .ok (String.utf8EncodeChar (Char.ofNat n), t) := by
  rw [readEscape, if_pos rfl, read]

/-- A literal is read to its closing quote, as the characters that its code units denote. -/
theorem readString_literal (s : Bytes) (literal : Literal) {chars : List Char}
    (denoted : Literal.chars? literal.units = some chars) :
    readString (literal.text ++ 0x22 :: s) = .ok (chars.flatMap String.utf8EncodeChar, s) := by
  cases literal with
  | nil =>
    obtain rfl : [] = chars := Option.some.inj denoted
    change readString (0x22 :: s) = _
    rw [readString, if_pos rfl]
    rfl
  | cons piece literal =>
    cases piece with
    | plain char unescaped =>
      rw [Literal.units, List.flatMap_cons, Piece.units, chars?_codeUnits] at denoted
      obtain ⟨later, found, rfl⟩ := Option.map_eq_some_iff.mp denoted
      have read := readString_literal s literal found
      rw [Literal.text, List.flatMap_cons, List.append_assoc]
      apply readString_inString _ read
      intro b member
      exact inString_of_mem_encode unescaped member
    | letter letter =>
      rw [Literal.units, List.flatMap_cons, Piece.units, chars?_codeUnits] at denoted
      obtain ⟨later, found, rfl⟩ := Option.map_eq_some_iff.mp denoted
      have read := readString_literal s literal found
      exact readString_escape (readEscape_letter letter _) read
    | unit a b c d =>
      have word := hexWord_bytes a b c d (Literal.text literal ++ 0x22 :: s)
      rw [Literal.units, List.flatMap_cons, Piece.units, List.singleton_append] at denoted
      rcases chars?_cons denoted with
        ⟨scalar, later, found, rfl⟩ | ⟨leads, m, units, later, trailed⟩
      · have read := readString_literal s literal found
        exact readString_escape (readEscape_unicode (readUnicode_scalar word scalar)) read
      · -- The pair takes the next piece along, so the rest of the literal is two pieces on.
        obtain ⟨same, trails, found, rfl⟩ := trailed
        obtain ⟨a', b', c', d', literal, rfl, rfl, rfl⟩ := trailing_unit trails same
        have second := hexWord_bytes a' b' c' d' (Literal.text literal ++ 0x22 :: s)
        have read := readString_literal s literal found
        have pair := readUnicode_pair word second leads trails
        exact readString_escape (readEscape_unicode pair) read

theorem readKey_quoted {key : Literal} {name : String} (denotes : key.string? = some name)
    (s : Bytes) : readKey (quoted key ++ s) = .ok (Bytes.ofString name, s) := by
  obtain ⟨chars, found, rfl⟩ := Option.map_eq_some_iff.mp denotes
  rw [quoted, List.cons_append, List.append_assoc, readKey, if_pos rfl, Bytes.ofString,
    String.toList_ofList]
  exact readString_literal s key found

end Reading

section Refusal
variable {s t decoded bytes : Bytes} {n : Nat}

theorem readString_inString_refused (inside : ∀ b ∈ bytes, InString b)
    (refused : ∃ fault, readString s = .error fault) :
    ∃ fault, readString (bytes ++ s) = .error fault := by
  induction bytes with
  | nil => exact refused
  | cons b bytes ih =>
    obtain ⟨quote, backslash, visible⟩ := inside b List.mem_cons_self
    obtain ⟨fault, later⟩ := ih fun b member => inside b (List.mem_cons_of_mem _ member)
    refine ⟨fault, ?_⟩
    rw [List.cons_append, readString, if_neg quote, if_neg backslash, if_neg visible, later]

theorem readString_behind_escape_refused (escape : readEscape s = .ok (decoded, t))
    (refused : ∃ fault, readString t = .error fault) :
    ∃ fault, readString (0x5C :: s) = .error fault := by
  obtain ⟨fault, refused⟩ := refused
  refine ⟨fault, ?_⟩
  rw [readString, if_neg (by decide), if_pos rfl]
  split
  · next failed => rw [escape] at failed; contradiction
  · next same =>
    obtain ⟨rfl, rfl⟩ := Prod.mk.inj (Except.ok.inj (escape.symm.trans same))
    rw [refused]

theorem readString_unicode_refused (refused : ∃ fault, readUnicode s = .error fault) :
    ∃ fault, readString (0x5C :: 0x75 :: s) = .error fault := by
  obtain ⟨fault, refused⟩ := refused
  have escape : readEscape (0x75 :: s) = .error fault := by
    rw [readEscape, if_pos rfl, refused]
  refine ⟨fault, ?_⟩
  rw [readString, if_neg (by decide), if_pos rfl]
  split
  · next same => rw [Except.error.inj (escape.symm.trans same)]
  · next read => rw [escape] at read; contradiction

theorem readUnicode_trailing_refused (word : hexWord s = .ok (n, t))
    (trails : 0xDC00 ≤ n ∧ n < 0xE000) : ∃ fault, readUnicode s = .error fault := by
  have trailing : isTrailingSurrogate n = true := by simp [isTrailingSurrogate]; omega
  rw [readUnicode, word]
  dsimp only
  rw [if_pos trailing]
  exact ⟨_, rfl⟩

theorem readUnicode_leading (word : hexWord s = .ok (n, t)) (leads : 0xD800 ≤ n ∧ n < 0xDC00) :
    readUnicode s = readTrailing n t := by
  have trailing : isTrailingSurrogate n = false := by simp [isTrailingSurrogate]; omega
  have leading : isLeadingSurrogate n = true := by simp [isLeadingSurrogate]; omega
  rw [readUnicode, word]
  dsimp only
  rw [trailing, leading]
  rfl

/-- Behind the first half of a pair only an escape by number is read. -/
theorem readTrailing_refused {b : UInt8} (other : b ≠ 0x5C) :
    ∃ fault, readTrailing n (b :: s) = .error fault := by
  rw [readTrailing, expectPairing, if_neg other]
  exact ⟨_, rfl⟩

theorem readTrailing_letter_refused {b : UInt8} (other : b ≠ 0x75) :
    ∃ fault, readTrailing n (0x5C :: b :: s) = .error fault := by
  rw [readTrailing, expectPairing, if_pos rfl]
  dsimp only
  rw [expectPairing, if_neg other]
  exact ⟨_, rfl⟩

theorem readTrailing_word_refused {m : Nat} (word : hexWord s = .ok (m, t))
    (other : ¬(0xDC00 ≤ m ∧ m < 0xE000)) :
    ∃ fault, readTrailing n (0x5C :: 0x75 :: s) = .error fault := by
  have trailing : isTrailingSurrogate m = false := by simp [isTrailingSurrogate]; omega
  rw [readTrailing, expectPairing, if_pos rfl]
  dsimp only
  rw [expectPairing, if_pos rfl]
  dsimp only
  rw [word]
  dsimp only
  rw [trailing]
  exact ⟨_, rfl⟩

/-- Behind the first half of a pair the second comes at once and by its number, or the reader
refuses what comes. -/
theorem trailing_or_refused (n : Nat) (literal : Literal) (s : Bytes) :
    (∃ a b c d later, literal = .unit a b c d :: later ∧
      (0xDC00 ≤ ((a.value.val * 16 + b.value) * 16 + c.value) * 16 + d.value ∧
        ((a.value.val * 16 + b.value) * 16 + c.value) * 16 + d.value < 0xE000)) ∨
    ∃ fault, readTrailing n (literal.text ++ 0x22 :: s) = .error fault := by
  cases literal with
  | nil => exact .inr (readTrailing_refused (by decide))
  | cons piece literal =>
    cases piece with
    | plain char unescaped =>
      obtain ⟨first, tail, same, -⟩ := Utf8.reads_encodeChar char
      have inside : InString first := inString_of_mem_encode unescaped (same ▸ List.mem_cons_self)
      right
      rw [Literal.text, List.flatMap_cons, Piece.text, same]
      exact readTrailing_refused inside.2.1
    | letter letter => exact .inr (readTrailing_letter_refused (letter_byte_ne letter))
    | unit a b c d =>
      by_cases trails : 0xDC00 ≤ ((a.value.val * 16 + b.value) * 16 + c.value) * 16 + d.value ∧
          ((a.value.val * 16 + b.value) * 16 + c.value) * 16 + d.value < 0xE000
      · exact .inl ⟨a, b, c, d, literal, rfl, trails⟩
      · have second := hexWord_bytes a b c d (Literal.text literal ++ 0x22 :: s)
        exact .inr (readTrailing_word_refused second trails)

/-- A literal whose code units denote no characters is refused where the first of them does not. -/
theorem readString_refused (s : Bytes) (literal : Literal)
    (undenoted : Literal.chars? literal.units = none) :
    ∃ fault, readString (literal.text ++ 0x22 :: s) = .error fault := by
  cases literal with
  | nil => contradiction
  | cons piece literal =>
    cases piece with
    | plain char unescaped =>
      rw [Literal.units, List.flatMap_cons, Piece.units, chars?_codeUnits] at undenoted
      have refused := readString_refused s literal (Option.map_eq_none_iff.mp undenoted)
      rw [Literal.text, List.flatMap_cons, List.append_assoc]
      apply readString_inString_refused _ refused
      intro b member
      exact inString_of_mem_encode unescaped member
    | letter letter =>
      rw [Literal.units, List.flatMap_cons, Piece.units, chars?_codeUnits] at undenoted
      have refused := readString_refused s literal (Option.map_eq_none_iff.mp undenoted)
      exact readString_behind_escape_refused (readEscape_letter letter _) refused
    | unit a b c d =>
      have word := hexWord_bytes a b c d (Literal.text literal ++ 0x22 :: s)
      rw [Literal.units, List.flatMap_cons, Piece.units, List.singleton_append] at undenoted
      generalize ((a.value.val * 16 + b.value) * 16 + c.value) * 16 + d.value = n at *
      by_cases scalar : n < 0xD800 ∨ 0xE000 ≤ n
      · rw [chars?_scalar scalar] at undenoted
        have refused := readString_refused s literal (Option.map_eq_none_iff.mp undenoted)
        exact readString_behind_escape_refused
          (readEscape_unicode (readUnicode_scalar word scalar)) refused
      by_cases trails : 0xDC00 ≤ n ∧ n < 0xE000
      · exact readString_unicode_refused (readUnicode_trailing_refused word trails)
      · have leads : 0xD800 ≤ n ∧ n < 0xDC00 := by omega
        rcases trailing_or_refused n literal s with ⟨a', b', c', d', later, rfl, trails⟩ | refused
        · have second := hexWord_bytes a' b' c' d' (Literal.text later ++ 0x22 :: s)
          rw [List.flatMap_cons, Piece.units, List.singleton_append, chars?_pair leads trails]
            at undenoted
          have refused := readString_refused s later (Option.map_eq_none_iff.mp undenoted)
          exact readString_behind_escape_refused
            (readEscape_unicode (readUnicode_pair word second leads trails)) refused
        · exact readString_unicode_refused (readUnicode_leading word leads ▸ refused)

theorem readKey_refused {key : Literal} (undenoted : key.string? = none) (s : Bytes) :
    ∃ fault, readKey (quoted key ++ s) = .error fault := by
  obtain ⟨fault, refused⟩ := readString_refused s key (Option.map_eq_none_iff.mp undenoted)
  refine ⟨fault, ?_⟩
  rw [quoted, List.cons_append, List.append_assoc, readKey, if_pos rfl]
  exact refused

end Refusal

end CoreLocator.Json
