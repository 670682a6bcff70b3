import CoreLocator.Report
import CoreLocator.Proofs.Certificate

/-! What a certificate is decoded to. A text that is decoded stays one, since an escape is two whole
characters. A text without backslashes that was put into a document with its line ends escaped comes
back but for a line end at its end, and the file that it is kept in has that one again. -/
namespace CoreLocator.Certificate

variable {raw pem text front : Bytes} {b : UInt8}

/-- A text as a document carries it, each line end spelled as an escape. -/
def escape (text : Bytes) : Bytes :=
  text.flatMap fun b => if b = 0x0A then escapedNewline else [b]

section Decoding

/-- A value without the escape at its end. -/
def trimmed (raw : Bytes) : Bytes := (Bytes.before? escapedNewline raw).getD raw

theorem trimmed_newline (front : Bytes) : trimmed (front ++ escapedNewline) = front := by
  rw [trimmed, Bytes.before?_eq_some.mpr rfl, Option.getD_some]

theorem trimmed_other (other : ¬escapedNewline <:+ raw) : trimmed raw = raw := by
  have unended : Bytes.before? escapedNewline raw = none := by
    apply Option.eq_none_iff_forall_ne_some.mpr
    intro front found
    exact other ⟨front, (Bytes.before?_eq_some.mp found).symm⟩
  rw [trimmed, unended, Option.getD_none]

theorem trimmed_cases (raw : Bytes) : trimmed raw = raw ∨ raw = trimmed raw ++ escapedNewline := by
  by_cases ends : escapedNewline <:+ raw
  · obtain ⟨front, rfl⟩ := ends
    rw [trimmed_newline]
    exact .inr rfl
  · exact .inl (trimmed_other ends)

theorem decode_eq (raw : Bytes) : decode raw =
    if raw.length < 2 then .error (.certificateTooShort raw.length)
    else if unescape (trimmed raw) = [] then .error .certificateEmpty
    else .ok (unescape (trimmed raw)) := by
  rw [decode, ← trimmed]
  congr 1
  cases unescape (trimmed raw) <;> rfl

/-- Decoding can use the value's own bytes for the result. -/
theorem decode_inPlace (raw : Bytes) : decode raw =
    if raw.length < 2 then .error (.certificateTooShort raw.length)
    else
      let (contents, length) := unescapeInPlace (trimmed raw)
      match contents.take length with
      | [] => .error .certificateEmpty
      | certificate => .ok certificate := by
  rw [unescapeInPlace_eq]
  dsimp only
  rw [List.take_left]
  rfl

end Decoding

section Texts

/-- Escapes are characters of their own, so that real line ends can take their place. -/
theorem isText_unescape {s : Bytes} (front : Bytes) (isText : Utf8.IsText (front ++ s)) :
    Utf8.IsText (front ++ unescape s) := by
  induction s using escape_induction generalizing front with
  | nil => exact isText
  | newline s ih =>
    have before : Utf8.IsText front := isText.before_ascii (by decide)
    have mark : Utf8.IsText escapedNewline := Utf8.isText_ascii (by simp [escapedNewline])
    have rest : Utf8.IsText s := by
      rw [← List.append_assoc] at isText
      exact (before.append mark).of_append isText
    have ended : Utf8.IsText [0x0A] := Utf8.isText_ascii (by simp)
    exact before.append (ended.append (ih [] rest))
  | other b s unescaped ih =>
    have later := ih (front ++ [b])
    simp only [List.append_assoc, List.singleton_append] at later
    rw [unescape_other unescaped]
    exact later isText

theorem isText_trimmed (isText : Utf8.IsText raw) : Utf8.IsText (trimmed raw) := by
  rcases trimmed_cases raw with same | ended
  · exact same.symm ▸ isText
  · rw [ended] at isText
    exact isText.before_ascii (by decide)

theorem length_trimmed_le (raw : Bytes) : (trimmed raw).length ≤ raw.length := by
  rcases trimmed_cases raw with same | ended
  · exact Nat.le_of_eq (congrArg List.length same)
  · have count := congrArg List.length ended
    rw [List.length_append] at count
    omega

/-- What a text is decoded to is a text that is no longer and has something in it. -/
theorem decoded_text (isText : Utf8.IsText raw) (decoded : decode raw = .ok pem) :
    pem ≠ [] ∧ Utf8.IsText pem ∧ pem.length ≤ raw.length ∧ ¬escapedNewline <:+: pem := by
  rw [decode_eq] at decoded
  split at decoded
  · contradiction
  split at decoded
  · contradiction
  next solid =>
  obtain rfl := Except.ok.inj decoded
  refine ⟨solid, isText_unescape [] (isText_trimmed isText), ?_, clean_unescape _⟩
  have shorter := length_unescape (trimmed raw)
  have cut := length_trimmed_le raw
  omega

end Texts

section RoundTrip

theorem unescape_escape (plain : 0x5C ∉ text) : unescape (escape text) = text := by
  induction text with
  | nil => rfl
  | cons b text ih =>
    rw [List.mem_cons, not_or] at plain
    have later := ih plain.2
    rw [escape, List.flatMap_cons, ← escape]
    by_cases ends : b = 0x0A
    · rw [if_pos ends, unescape_newline, later, ends]
    · have unescaped : ¬escapedNewline <+: b :: escape text := by
        rintro ⟨rest, same⟩
        exact plain.1 (List.cons.inj same).1
      rw [if_neg ends, List.singleton_append, unescape_other unescaped, later]

theorem escape_append (front text : Bytes) : escape (front ++ text) = escape front ++ escape text :=
  List.flatMap_append

theorem escape_newline (front : Bytes) :
    escape (front ++ [0x0A]) = escape front ++ escapedNewline :=
  escape_append front [0x0A]

theorem escape_other (other : b ≠ 0x0A) (front : Bytes) :
    escape (front ++ [b]) = escape front ++ [b] := by
  rw [escape_append, escape, escape, List.flatMap_singleton, if_neg other]

/-- Where no backslash was, an escape ends in a letter. -/
theorem escape_ne_backslash (plain : 0x5C ∉ text) (front : Bytes) :
    escape text ≠ front ++ [0x5C] := by
  intro same
  rcases List.eq_nil_or_concat text with rfl | ⟨before, b, rfl⟩
  · simp [escape] at same
  rw [List.concat_eq_append] at same plain
  by_cases ends : b = 0x0A
  · have letter : (escape before ++ [0x5C]) ++ [0x6E] = front ++ [0x5C] := by
      rw [ends, escape_newline] at same
      simpa [escapedNewline] using same
    have last := List.append_inj_right' letter rfl
    contradiction
  · rw [escape_other ends] at same
    have last := List.append_inj_right' same rfl
    rw [last] at plain
    exact plain (List.mem_append_right before List.mem_cons_self)

/-- Only a line end at the end of a text is escaped at the end. -/
theorem escape_ends (plain : 0x5C ∉ front) (other : b ≠ 0x0A) :
    ¬escapedNewline <:+ escape (front ++ [b]) := by
  rintro ⟨before, same⟩
  have split : (before ++ [0x5C]) ++ [0x6E] = escape front ++ [b] := by
    rw [← escape_other other, ← same, List.append_assoc]
    rfl
  exact escape_ne_backslash plain before (List.append_inj_left' split rfl).symm

theorem trimmed_escape (plain : 0x5C ∉ text) :
    trimmed (escape text) =
      escape (if text.getLast? = some 0x0A then text.dropLast else text) := by
  rcases List.eq_nil_or_concat text with rfl | ⟨front, b, rfl⟩
  · rfl
  rw [List.concat_eq_append] at plain ⊢
  rw [List.getLast?_concat, List.dropLast_concat]
  by_cases ends : b = 0x0A
  · rw [ends, if_pos rfl, escape_newline, trimmed_newline]
  · have front : 0x5C ∉ front := fun member => plain (List.mem_append_left [b] member)
    rw [if_neg (mt Option.some.inj ends), trimmed_other (escape_ends front ends)]

theorem length_escape (text : Bytes) : (escape text).length = text.length + text.count 0x0A := by
  induction text with
  | nil => rfl
  | cons b text ih =>
    rw [escape, List.flatMap_cons, ← escape, List.length_append, ih, List.count_cons]
    by_cases ends : b = 0x0A
    · simp only [if_pos ends, beq_iff_eq, escapedNewline, List.length_cons, List.length_nil]
      omega
    · simp only [if_neg ends, beq_iff_eq, List.length_cons, List.length_nil]
      omega

/-- A line end at the end is lost, and nothing else. -/
theorem decode_escape (plain : 0x5C ∉ text) :
    decode (escape text) =
      if text.length < 2 then
        .error (if text = [0x0A] then .certificateEmpty else .certificateTooShort text.length)
      else .ok (if text.getLast? = some 0x0A then text.dropLast else text) := by
  have kept : 0x5C ∉ if text.getLast? = some 0x0A then text.dropLast else text := by
    split
    · exact fun member => plain (List.dropLast_subset text member)
    · exact plain
  rw [decode_eq, trimmed_escape plain, unescape_escape kept, length_escape]
  -- A line end alone is as long as an escape, and then nothing is left of it.
  match text with
  | [] => rfl
  | [b] =>
    by_cases ends : b = 0x0A
    · rw [ends]
      rfl
    · simp [ends]
  | a :: b :: rest =>
    have long : ¬(a :: b :: rest).length < 2 := by
      simp
    have solid : (if (a :: b :: rest).getLast? = some 0x0A then (a :: b :: rest).dropLast
        else a :: b :: rest) ≠ [] := by
      split <;> simp
    rw [if_neg long, if_neg (by omega), if_neg solid]

/-- A text without backslashes, its line ends escaped, is decoded to itself without the line end at
its end. Only a text of less than two bytes is refused. One of at least two bytes that ends its last
line is what the certificate's file has in it. -/
theorem certificate_round_trip (text : String) (plain : '\\' ∉ text.toList) :
    decode (escape (Bytes.ofString text)) =
      (if (Bytes.ofString text).length < 2 then
        .error (if Bytes.ofString text = [0x0A] then .certificateEmpty
          else .certificateTooShort (Bytes.ofString text).length)
      else if (Bytes.ofString text).getLast? = some 0x0A then .ok (Bytes.ofString text).dropLast
      else .ok (Bytes.ofString text)) ∧
    (2 ≤ (Bytes.ofString text).length → (Bytes.ofString text).getLast? = some 0x0A →
      ∃ certificate, decode (escape (Bytes.ofString text)) = .ok certificate ∧
        certificate ++ [0x0A] = Bytes.ofString text ∧
        ∀ core : CoreAddress, core.certificate = some certificate →
          Report.certificateFile? core = some text) := by
  have free : 0x5C ∉ Bytes.ofString text := fun member =>
    plain (Utf8.mem_of_ascii member (by decide))
  have decoded := decode_escape free
  constructor
  · rw [decoded]
    split
    · rfl
    · split <;> rfl
  intro long ends
  obtain ⟨certificate, same⟩ := List.getLast?_eq_some_iff.mp ends
  refine ⟨certificate, ?_, same.symm, ?_⟩
  · rw [decoded, if_neg (Nat.not_lt_of_le long), if_pos ends, same, List.dropLast_concat]
  intro core kept
  have isText : Utf8.IsText (certificate ++ [0x0A]) := same ▸ Utf8.isText_encode text.toList
  obtain ⟨pem, read, bytes⟩ := (isText.before_ascii (by decide)).exists_text
  have whole : pem ++ "\n" = text := by
    rw [← Utf8.ofString_inj, Bytes.ofString_append, bytes, same]
    rfl
  rw [Report.certificateFile?, CoreAddress.certificatePem, kept, Option.bind_some, read,
    Option.map_some, whole]

/-- Of two line ends at the end one is lost, and the file has it. -/
theorem certificate_round_trip_blank_line :
    let text := "é\n\n"
    '\\' ∉ text.toList ∧ decode (escape (Bytes.ofString text)) = .ok [0xC3, 0xA9, 0x0A] ∧
      ∀ core : CoreAddress, core.certificate = some [0xC3, 0xA9, 0x0A] →
        Report.certificateFile? core = some text := by
  have plain : '\\' ∉ "é\n\n".toList := by
    decide
  obtain ⟨decoded, kept⟩ := certificate_round_trip "é\n\n" plain
  have known : decode (escape (Bytes.ofString "é\n\n")) = .ok [0xC3, 0xA9, 0x0A] :=
    decoded.trans (by decide +kernel)
  refine ⟨plain, known, ?_⟩
  obtain ⟨certificate, same, -, file⟩ := kept (by decide +kernel) (by decide +kernel)
  obtain rfl := Except.ok.inj (known.symm.trans same)
  exact file

end RoundTrip

end CoreLocator.Certificate
