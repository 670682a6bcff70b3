import CoreLocator.Proofs.Json.Path
import CoreLocator.Proofs.Json.Replacement
import CoreLocator.Proofs.Json.Steps

/-! Looking a path up in a text finds what the path leads to in the value that the text spells. -/
namespace CoreLocator.Json

section Walk

theorem span_behind (outer : Bytes) (place : Place) (start : Nat) :
    (place.behind outer).span start = place.span (start + outer.length) := by
  rw [Place.behind, Place.span, Place.span, List.length_append, Nat.add_assoc]

/-- The steps of a path lead through the text to where they lead a reader of the value. -/
theorem foldlM_step? {start : Nat} {value : Spelling} {rest : Bytes} (gap : Gap) (step : Step)
    (path : Path) :
    (step :: path).foldlM Slice.step? ⟨start, gap.text ++ (value.bytes ++ rest)⟩ =
      (value.reach? (step :: path)).map fun place => (place.behind gap.text).span start := by
  induction path generalizing start value rest gap step with
  | nil =>
    rw [List.foldlM_cons, step?_bytes gap, Spelling.reach?]
    cases value.enter? step with
    | none => rfl
    | some place =>
      simp only [Option.map_some, Option.bind_eq_bind, Option.bind_some, List.foldlM_nil,
        Spelling.reach?, Place.behind, List.append_nil]
      rfl
  | cons next path ih =>
    rw [List.foldlM_cons, step?_bytes gap, Spelling.reach?]
    cases value.enter? step with
    | none => rfl
    | some place =>
      have later := @ih (start + (place.behind gap.text).before.length) place.value [] [] next
      rw [List.append_nil] at later
      simp only [Option.map_some, Option.bind_eq_bind, Option.bind_some]
      refine later.trans ?_
      cases place.value.reach? (next :: path) with
      | none => rfl
      | some last =>
        change some ((last.behind []).span _) = some (((last.behind place.before).behind _).span _)
        rw [Place.behind_behind, span_behind, span_behind]
        rfl

end Walk

section Quotes

theorem unquote_quoted (start : Nat) (literal : Literal) :
    Slice.unquote ⟨start, quoted literal⟩ = ⟨start + 1, literal.text⟩ := by
  have opened : Bytes.after? [0x22] (quoted literal) = some (literal.text ++ [0x22]) := rfl
  have closed : Bytes.before? [0x22] (literal.text ++ [0x22]) = some literal.text := by
    rw [Bytes.before?, List.reverse_append]
    exact congrArg some (List.reverse_reverse literal.text)
  rw [Slice.unquote, opened, Option.bind_some, closed]

theorem unquote_cons (start : Nat) {b : UInt8} (s : Bytes) (other : b ≠ 0x22) :
    Slice.unquote ⟨start, b :: s⟩ = ⟨start, b :: s⟩ := by
  rw [Slice.unquote, Bytes.after?, if_neg other.symm]
  rfl

/-- Only strings lose their first and last byte. -/
theorem unquote_span (place : Place) : (place.span 0).unquote = place.slice := by
  obtain ⟨before, value⟩ := place
  rw [Place.span, Nat.zero_add]
  cases value with
  | null => exact unquote_cons _ _ (by decide)
  | bool value => cases value <;> exact unquote_cons _ _ (by decide)
  | number numeral =>
    obtain ⟨b, s, same, head⟩ := head_numeral numeral
    rw [Spelling.bytes, same, Place.slice, Spelling.bytes, same]
    · apply unquote_cons
      rcases head with rfl | digit
      · decide
      · exact ne_of_isDigit digit rfl
    · intro literal other
      contradiction
  | text literal => exact unquote_quoted before.length literal
  | list inner items => exact unquote_cons _ _ (by decide)
  | object inner members => exact unquote_cons _ _ (by decide)

end Quotes

section Sources
variable {source : Source} {tree : Tree}

/-- What a path finds in a text is where it leads a reader of the value that is spelled. -/
theorem search?_reached (source : Source) (path : Path.Written) :
    search? source.text path.text = (source.reach? path.steps).map Place.slice := by
  obtain ⟨before, value, after⟩ := source
  obtain ⟨step, steps, same⟩ := List.exists_cons_of_ne_nil (Path.steps_ne_nil path)
  have walked := @foldlM_step? 0 value after.text before step steps
  rw [search?, Path.parse?_text, same, Option.bind_eq_bind, Option.bind_some, Slice.whole,
    Source.text, List.append_assoc, walked, Source.reach?]
  cases value.reach? (step :: steps) with
  | none => rfl
  | some place => exact congrArg some (unquote_span (place.behind before.text))

theorem search?_written (spells : source.tree? = some tree) (path : Path.Written) :
    search? source.text path.text = (source.select? path.steps).map Place.slice := by
  rw [search?_reached, Source.reach?, reach?_of_tree spells]
  rfl

theorem isSome_search? (spells : source.tree? = some tree) (path : Path.Written) :
    (search? source.text path.text).isSome = (tree.follow? path.steps).isSome := by
  have same := congrArg Option.isSome (select?_source_tree spells path.steps)
  rw [Option.isSome_map, Option.isSome_map] at same
  rw [search?_written spells, Option.isSome_map, same]

theorem exists_written {document path : Bytes} {slice : Slice}
    (found : search? document path = some slice) :
    ∃ written : Path.Written, written.text = path := by
  obtain ⟨steps, parsed, -⟩ := Option.bind_eq_some_iff.mp found
  obtain ⟨written, same, -⟩ := Path.parse?_eq_some.mp parsed
  exact ⟨written, same⟩

/-- Lookup in a text is lookup in the value that it spells. A path finds something exactly when it
is well formed and can be followed through the tree, and what it finds is the piece of the text that
spells the value it leads to, without the quotes of a string. -/
theorem search?_source (spells : source.tree? = some tree) (path : Bytes) :
    ((search? source.text path).isSome ↔ ∃ written : Path.Written, written.text = path ∧
      (tree.follow? written.steps).isSome) ∧
    ∀ slice, search? source.text path = some slice →
      ∃ (written : Path.Written) (place : Place) (behind : Bytes), written.text = path ∧
        source.select? written.steps = some place ∧
        place.value.tree? = tree.follow? written.steps ∧
        source.text = place.before ++ (place.value.bytes ++ behind) ∧
        slice = place.slice := by
  constructor
  · constructor
    · intro found
      obtain ⟨slice, same⟩ := Option.isSome_iff_exists.mp found
      obtain ⟨written, rfl⟩ := exists_written same
      rw [isSome_search? spells] at found
      exact ⟨written, rfl, found⟩
    · rintro ⟨written, rfl, reaches⟩
      rw [isSome_search? spells]
      exact reaches
  · intro slice found
    obtain ⟨written, rfl⟩ := exists_written found
    rw [search?_written spells] at found
    obtain ⟨place, selected, rfl⟩ := Option.map_eq_some_iff.mp found
    obtain ⟨behind, whole⟩ := select?_source_bytes selected
    have reached := select?_source_tree spells written.steps
    rw [selected] at reached
    obtain ⟨value, followed, same⟩ := Option.map_eq_some_iff.mp reached.symm
    exact ⟨written, place, behind, rfl, selected, same.symm.trans followed.symm, whole, rfl⟩

/-- An object whose key `a` is spelled by an escape, with a list of the number -10 and of an object
with the key `k` twice. -/
def repeated : Source where
  before := [.space]
  value := .object [] [⟨[.lineFeed], [.unit ⟨0, false⟩ ⟨0, false⟩ ⟨6, false⟩ ⟨1, false⟩], [.space],
    [.space],
    .list [] [⟨[.tab], .number ⟨true, 10, none, none⟩, []⟩,
      ⟨[.space], .object [.space]
        [⟨[], [.plain 'k' (by decide)], [], [.space],
          .text [.plain 'x' (by decide), .letter .quote], [.space]⟩,
        ⟨[], [.plain 'k' (by decide)], [], [], .null, []⟩], [.carriageReturn]⟩],
    []⟩]
  after := [.lineFeed]

def nested : Path.Written where
  dotted := true
  first := ⟨[0x61], [⟨false, ⟨1, []⟩, by decide⟩], by simp, .inl (by decide)⟩
  more := [⟨[0x6B], [], by simp, .inl (by decide)⟩]

theorem tree?_repeated : repeated.tree? = some (.object
    [("a", .list [.number ⟨true, 10, none, none⟩,
      .object [("k", .text [0x78, 0x22]), ("k", .null)]])]) := by
  rfl

/-- Of two members of one name the first counts, and the escape in its value stays as spelled. -/
theorem search?_source_repeated :
    search? repeated.text (.ofString ".a[1].k") = some ⟨29, [0x78, 0x5C, 0x22]⟩ := by
  have path : nested.text = .ofString ".a[1].k" := by decide +kernel
  obtain ⟨finds, exact⟩ := search?_source tree?_repeated (.ofString ".a[1].k")
  obtain ⟨slice, found⟩ := Option.isSome_iff_exists.mp (finds.mpr ⟨nested, path, rfl⟩)
  obtain ⟨written, place, behind, same, selected, -, -, rfl⟩ := exact slice found
  have steps : some written.steps = some nested.steps := by
    rw [← Path.parse?_text written, ← Path.parse?_text nested, same, path]
  have slice : (repeated.select? nested.steps).map Place.slice = some ⟨29, [0x78, 0x5C, 0x22]⟩ := by
    rfl
  rw [← Option.some.inj steps, selected] at slice
  exact found.trans slice

end Sources

end CoreLocator.Json
