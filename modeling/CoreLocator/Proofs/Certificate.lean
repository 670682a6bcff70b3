import CoreLocator.Certificate
import CoreLocator.Proofs.Bytes
import CoreLocator.Proofs.Utf8

/-! Line ends that are spelled as escapes, made real ones again. Two escapes never share a byte, so
that reading from left to right finds each of them, and where one is replaced no other comes about.
In place the same happens as out of place: what is still to be read has not been written to. -/
namespace CoreLocator.Certificate

variable {s : Bytes} {b : UInt8}

section Escapes

theorem newline_starts_iff {a b : UInt8} :
    escapedNewline <+: a :: b :: s ↔ a = 0x5C ∧ b = 0x6E := by
  simp only [escapedNewline, List.cons_prefix_cons, List.nil_prefix, and_true, eq_comm]

/-- A text is empty, or starts with an escape, or with a byte that starts none. -/
@[elab_as_elim]
theorem escape_induction {motive : Bytes → Prop} (nil : motive [])
    (newline : ∀ s, motive s → motive (escapedNewline ++ s))
    (other : ∀ b s, ¬escapedNewline <+: b :: s → motive s → motive (b :: s)) (s : Bytes) :
    motive s := by
  induction s using unescape.induct with
  | case1 => exact nil
  | case2 b => exact other b [] (by simp [escapedNewline]) nil
  | case3 a b s pair ih =>
    obtain ⟨rfl, rfl⟩ := pair
    exact newline s ih
  | case4 a b s single ih => exact other a (b :: s) (mt newline_starts_iff.mp single) ih

theorem unescape_newline (s : Bytes) : unescape (escapedNewline ++ s) = 0x0A :: unescape s := rfl

theorem unescape_other (unescaped : ¬escapedNewline <+: b :: s) :
    unescape (b :: s) = b :: unescape s := by
  cases s with
  | nil => rfl
  | cons c s => exact if_neg (mt newline_starts_iff.mpr unescaped)

/-- How many places of `s` an escape starts at. -/
def escapeCount (s : Bytes) : Nat :=
  (List.range s.length).countP fun i => escapedNewline.isPrefixOf (s.drop i)

theorem escapeCount_cons (b : UInt8) (s : Bytes) :
    escapeCount (b :: s) = escapeCount s + if escapedNewline <+: b :: s then 1 else 0 := by
  rw [escapeCount, List.length_cons, List.range_succ_eq_map, List.countP_cons, List.countP_map]
  simp only [Function.comp_def, List.drop_succ_cons, List.drop_zero, List.isPrefixOf_iff_prefix]
  rfl

theorem escapeCount_newline (s : Bytes) :
    escapeCount (escapedNewline ++ s) = escapeCount s + 1 := by
  have second : ¬escapedNewline <+: 0x6E :: s := by
    simp [escapedNewline]
  have first : escapedNewline <+: 0x5C :: 0x6E :: s := newline_starts_iff.mpr ⟨rfl, rfl⟩
  change escapeCount (0x5C :: 0x6E :: s) = escapeCount s + 1
  rw [escapeCount_cons, escapeCount_cons, if_neg second, if_pos first]

theorem length_unescape (s : Bytes) : (unescape s).length + escapeCount s = s.length := by
  induction s using escape_induction with
  | nil => rfl
  | newline s ih =>
    rw [unescape_newline, escapeCount_newline, List.length_cons, List.length_append, ← ih]
    simp only [escapedNewline, List.length_cons, List.length_nil]
    omega
  | other b s unescaped ih =>
    rw [unescape_other unescaped, escapeCount_cons, if_neg unescaped]
    simp only [List.length_cons, ← ih]
    omega

/-- The first byte is a line end, or the one that was there before. -/
theorem head_unescape {c : UInt8} (first : (unescape s).head? = some c) :
    c = 0x0A ∨ s.head? = some c := by
  cases s using escape_induction with
  | nil => contradiction
  | newline s => exact .inl (Option.some.inj first).symm
  | other b s unescaped =>
    rw [unescape_other unescaped] at first
    exact .inr first

/-- No escape comes about where one is replaced, nor anywhere else. -/
theorem clean_unescape (s : Bytes) : ¬escapedNewline <:+: unescape s := by
  induction s using escape_induction with
  | nil => simp [unescape, escapedNewline]
  | newline s ih =>
    rw [unescape_newline, List.infix_cons_iff, not_or]
    constructor
    · rintro ⟨rest, same⟩
      exact absurd (List.cons.inj same).1 (by decide)
    · exact ih
  | other b s unescaped ih =>
    rw [unescape_other unescaped, List.infix_cons_iff, not_or]
    constructor
    · rintro ⟨rest, same⟩
      obtain ⟨rfl, later⟩ := List.cons.inj same
      rcases head_unescape (congrArg List.head? later).symm with other | next
      · contradiction
      · obtain ⟨s, rfl⟩ := List.head?_eq_some_iff.mp next
        exact unescaped (newline_starts_iff.mpr ⟨rfl, rfl⟩)
    · exact ih

theorem unescape_of_clean (clean : ¬escapedNewline <:+: s) : unescape s = s := by
  induction s using escape_induction with
  | nil => rfl
  | newline s => exact absurd (List.prefix_append _ _).isInfix clean
  | other b s unescaped ih =>
    rw [unescape_other unescaped, ih]
    exact fun inside => clean (inside.trans (List.suffix_cons b s).isInfix)

end Escapes

section InPlace

theorem unescapeFrom_end (buffer : Array UInt8) {read : Nat} (done : buffer.size ≤ read)
    (write : Nat) : unescapeFrom buffer read write = (buffer, write) := by
  rw [unescapeFrom, dif_neg (Nat.not_lt_of_le done)]

theorem unescapeFrom_cons (front s : Bytes) (b : UInt8) (write : Nat) :
    unescapeFrom (front ++ b :: s).toArray front.length write =
      if escapedNewline <+: b :: s then
        unescapeFrom ((front ++ b :: s).set write 0x0A).toArray (front.length + 2) (write + 1)
      else unescapeFrom ((front ++ b :: s).set write b).toArray (front.length + 1) (write + 1) := by
  have inside : front.length < (front ++ b :: s).toArray.size := by simp
  have here : (front ++ b :: s).toArray[front.length] = b := by simp
  have next : (front ++ b :: s).toArray[front.length + 1]? = s.head? := by
    have behind : front.length + 1 - front.length = 1 := Nat.add_sub_cancel_left _ _
    rw [List.getElem?_toArray, List.getElem?_append_right (Nat.le_succ _), behind,
      List.getElem?_cons_succ, List.head?_eq_getElem?]
  have starts : (b = 0x5C ∧ s.head? = some 0x6E) ↔ escapedNewline <+: b :: s := by
    cases s with
    | nil => simp [escapedNewline]
    | cons c s => simp [newline_starts_iff]
  rw [unescapeFrom, dif_pos inside, here, next, List.setIfInBounds_toArray,
    List.setIfInBounds_toArray]
  simp only [starts]

/-- In a buffer with the result so far in front and free bytes behind it, `rest` is read on as it
was, and the bytes behind the result stay. -/
def Rewrites (rest : Bytes) : Prop :=
  ∀ done free : Bytes,
    unescapeFrom (done ++ free ++ rest).toArray (done ++ free).length done.length =
      ((done ++ unescape rest ++ (free ++ rest).drop (unescape rest).length).toArray,
        done.length + (unescape rest).length)

/-- What is read is free from then on, and one byte of it is taken for the result. -/
theorem Rewrites.step {rest : Bytes} (later : Rewrites rest) (done free read : Bytes)
    (b c : UInt8) :
    unescapeFrom ((done ++ free ++ (c :: read ++ rest)).set done.length b).toArray
        ((done ++ free).length + (read.length + 1)) (done.length + 1) =
      ((done ++ b :: unescape rest ++
          (free ++ (c :: read ++ rest)).drop ((unescape rest).length + 1)).toArray,
        done.length + ((unescape rest).length + 1)) := by
  have written : (done ++ free ++ (c :: read ++ rest)).set done.length b =
      done ++ [b] ++ (free ++ c :: read).tail ++ rest := by
    cases free <;> simp
  have place : (done ++ free).length + (read.length + 1) =
      (done ++ [b] ++ (free ++ c :: read).tail).length := by
    simp only [List.length_append, List.length_tail, List.length_cons, List.length_nil]
    omega
  have left : (free ++ (c :: read ++ rest)).drop ((unescape rest).length + 1) =
      ((free ++ c :: read).tail ++ rest).drop (unescape rest).length := by
    cases free <;> simp
  have size : (done ++ [b]).length = done.length + 1 := List.length_append
  have rewritten := later (done ++ [b]) (free ++ c :: read).tail
  rw [size] at rewritten
  rw [written, place, rewritten, left, List.append_assoc done, Nat.add_assoc, Nat.add_comm 1]
  rfl

/-- The induction is on what is still to be read; each step frees at least the byte that it
writes. -/
theorem rewrites (rest : Bytes) : Rewrites rest := by
  induction rest using escape_induction with
  | nil =>
    intro done free
    rw [unescapeFrom_end _ (by simp)]
    simp [unescape]
  | newline s ih =>
    intro done free
    have starts : escapedNewline <+: 0x5C :: 0x6E :: s := List.prefix_append escapedNewline s
    change unescapeFrom (done ++ free ++ 0x5C :: 0x6E :: s).toArray _ _ = _
    rw [unescapeFrom_cons, if_pos starts]
    exact ih.step done free [0x6E] 0x0A 0x5C
  | other b s unescaped ih =>
    intro done free
    rw [unescapeFrom_cons, if_neg unescaped, unescape_other unescaped]
    exact ih.step done free [] b b

theorem unescapeInPlace_eq (buffer : Bytes) :
    unescapeInPlace buffer =
      (unescape buffer ++ buffer.drop (unescape buffer).length, (unescape buffer).length) := by
  have rewritten := rewrites buffer [] []
  simp only [List.nil_append, List.length_nil, Nat.zero_add] at rewritten
  rw [unescapeInPlace, rewritten]

end InPlace

/-- What stands between the escapes of a text. -/
structure Lines where
  first : Bytes
  more : List Bytes
  clean : ∀ line ∈ first :: more, ¬escapedNewline <:+: line

namespace Lines

/-- An escape between each two. -/
def raw (lines : Lines) : Bytes := lines.first ++ lines.more.flatMap (escapedNewline ++ ·)

/-- A line end between each two. -/
def text (lines : Lines) : Bytes := Bytes.join 0x0A lines.first lines.more

end Lines

section Replacing

theorem unescape_append {line : Bytes} (clean : ¬escapedNewline <:+: line) (s : Bytes) :
    unescape (line ++ (escapedNewline ++ s)) = line ++ 0x0A :: unescape s := by
  induction line with
  | nil => exact unescape_newline s
  | cons b line ih =>
    have unescaped : ¬escapedNewline <+: b :: (line ++ (escapedNewline ++ s)) := by
      cases line with
      | nil => simp [escapedNewline]
      | cons c line =>
        intro starts
        obtain ⟨rfl, rfl⟩ := newline_starts_iff.mp starts
        exact clean (List.prefix_append escapedNewline line).isInfix
    rw [List.cons_append, unescape_other unescaped, ih]
    · rfl
    · exact fun inside => clean (inside.trans (List.suffix_cons b line).isInfix)

theorem unescape_raw (lines : Lines) : unescape lines.raw = lines.text := by
  obtain ⟨first, more, clean⟩ := lines
  rw [Lines.raw, Lines.text, Bytes.join]
  dsimp only
  induction more generalizing first with
  | nil =>
    rw [List.flatMap_nil, List.flatMap_nil, List.append_nil]
    exact unescape_of_clean (clean first List.mem_cons_self)
  | cons line more ih =>
    have later := ih line fun other member => clean other (List.mem_cons_of_mem first member)
    rw [List.flatMap_cons, List.append_assoc,
      unescape_append (clean first List.mem_cons_self), later, List.flatMap_cons]
    rfl

theorem exists_lines (s : Bytes) : ∃ lines : Lines, lines.raw = s := by
  induction s using escape_induction with
  | nil => exact ⟨⟨[], [], by simp [escapedNewline]⟩, rfl⟩
  | newline s ih =>
    obtain ⟨⟨first, more, clean⟩, rfl⟩ := ih
    refine ⟨⟨[], first :: more, ?_⟩, ?_⟩
    · intro line member
      rcases List.mem_cons.mp member with rfl | member
      · simp [escapedNewline]
      · exact clean line member
    · simp [Lines.raw]
  | other b s unescaped ih =>
    obtain ⟨⟨first, more, clean⟩, rfl⟩ := ih
    refine ⟨⟨b :: first, more, ?_⟩, rfl⟩
    intro line member
    rcases List.mem_cons.mp member with rfl | member
    · rw [List.infix_cons_iff, not_or]
      constructor
      · exact fun starts => unescaped (starts.trans (List.prefix_append (b :: first) _))
      · exact clean first List.mem_cons_self
    · exact clean line (List.mem_cons_of_mem first member)

/-- A buffer is lines with escapes between them. At its front it is left with the same lines and a
line end for each escape, and behind that with the bytes that stood there. It is shorter by one for
each escape; there is none in the result, and where there is none nothing changes. -/
theorem unescapeInPlace_replaces (buffer : Bytes) : ∃ contents length,
    unescapeInPlace buffer = (contents, length) ∧
    ((∃ lines : Lines, lines.raw = buffer) ∧
      ∀ lines : Lines, lines.raw = buffer → contents.take length = lines.text) ∧
    contents.take length = unescape buffer ∧
    contents.drop length = buffer.drop length ∧
    contents.length = buffer.length ∧
    length + escapeCount buffer = buffer.length ∧
    ¬escapedNewline <:+: contents.take length ∧
    unescapeInPlace (contents.take length) = (contents.take length, length) ∧
    (¬escapedNewline <:+: buffer → contents = buffer ∧ length = buffer.length) := by
  have count := length_unescape buffer
  have front : (unescape buffer ++ buffer.drop (unescape buffer).length).take
      (unescape buffer).length = unescape buffer := List.take_left
  refine ⟨_, _, unescapeInPlace_eq buffer, ⟨exists_lines buffer, ?_⟩, front, List.drop_left, ?_,
    count, ?_, ?_, ?_⟩
  · rintro lines rfl
    rw [front, unescape_raw]
  · rw [List.length_append, List.length_drop]
    omega
  · rw [front]
    exact clean_unescape buffer
  · rw [front, unescapeInPlace_eq, unescape_of_clean (clean_unescape buffer), List.drop_length,
      List.append_nil]
  · intro clean
    rw [unescape_of_clean clean, List.drop_length, List.append_nil]
    exact ⟨rfl, rfl⟩

end Replacing

end CoreLocator.Certificate
