import CoreLocator.Proofs.Response.Head

/-! What a search that never goes back finds. A byte that does not fit is not taken for a beginning,
so an occurrence of the name is missed if the byte before it still belonged to an earlier start. -/
namespace CoreLocator.Response.FieldMatcher

variable {m : FieldMatcher} {s seen front : Bytes} {b : UInt8} {i k : Nat}

def pushAll (m : FieldMatcher) (s : Bytes) : FieldMatcher := s.foldl (fun m b => (m.push b).2) m

/-- For each byte, whether the name ends there. -/
def hits (m : FieldMatcher) : Bytes → List Bool
  | [] => []
  | b :: s => (m.push b).1 :: (m.push b).2.hits s

theorem pushAll_append (m : FieldMatcher) (front back : Bytes) :
    m.pushAll (front ++ back) = (m.pushAll front).pushAll back :=
  List.foldl_append

theorem pushAll_concat (m : FieldMatcher) (s : Bytes) (b : UInt8) :
    m.pushAll (s ++ [b]) = ((m.pushAll s).push b).2 :=
  m.pushAll_append s [b]

theorem target_pushAll (m : FieldMatcher) (s : Bytes) : (m.pushAll s).target = m.target := by
  induction s generalizing m with
  | nil => rfl
  | cons b s ih => exact (ih (m.push b).2).trans (m.push_target b)

theorem Follows.pushAll (follows : m.Follows seen) (s : Bytes) :
    (m.pushAll s).Follows (seen ++ s) := by
  induction s generalizing m seen with
  | nil => rwa [List.append_nil]
  | cons b s ih =>
    rw [List.append_cons]
    exact ih (follows.push b)

theorem hits_getElem? (m : FieldMatcher) (s : Bytes) (i : Nat) :
    (m.hits s)[i]? = s[i]?.map fun b => ((m.pushAll (s.take i)).push b).1 := by
  induction s generalizing m i with
  | nil => rfl
  | cons b s ih =>
    cases i with
    | zero => rfl
    | succ i => exact ih (m.push b).2 i

section Steps

theorem push_next (next : m.target[m.matched]? = some b)
    (more : m.matched + 1 ≠ m.target.length) :
    m.push b = (false, { m with matched := m.matched + 1 }) := by
  rw [push, if_pos next, if_neg more]

theorem push_last (next : m.target[m.matched]? = some b)
    (last : m.matched + 1 = m.target.length) : m.push b = (true, { m with matched := 0 }) := by
  rw [push, if_pos next, if_pos last]

/-- What is matched behind a byte was matched up to that byte before. -/
theorem matched_of_push (grown : (m.push b).2.matched = k + 1) :
    m.matched = k ∧ m.target[k]? = some b := by
  unfold push at grown
  split at grown
  · next next =>
    split at grown
    · contradiction
    · obtain rfl : m.matched = k := Nat.succ.inj grown
      exact ⟨rfl, next⟩
  · contradiction

theorem of_hit (hit : (m.push b).1 = true) :
    m.matched + 1 = m.target.length ∧ m.target[m.matched]? = some b := by
  unfold push at hit
  split at hit
  · next next =>
    split at hit
    · next last => exact ⟨last, next⟩
    · contradiction
  · contradiction

end Steps

/-- Behind a fresh start the beginning of the name is taken byte by byte. -/
theorem matched_pushAll_take (fresh : m.matched = 0) (short : k < m.target.length) :
    (m.pushAll (m.target.take k)).matched = k := by
  induction k with
  | zero => exact fresh
  | succ k ih =>
    have before := ih (Nat.lt_of_succ_lt short)
    have same := m.target_pushAll (m.target.take k)
    have next : m.target[k]? = some m.target[k] := List.getElem?_eq_getElem _
    rw [List.take_add_one, next, Option.toList_some, pushAll_concat, push_next]
    · exact congrArg Nat.succ before
    · rw [same, before]
      exact next
    · rw [same, before]
      exact Nat.ne_of_lt short

/-- What is matched has come since a fresh start, and nothing else has. -/
theorem exists_fresh (fresh : m.matched = 0) (matched : (m.pushAll s).matched = k) :
    ∃ front, s = front ++ m.target.take k ∧ (m.pushAll front).matched = 0 := by
  induction k generalizing s with
  | zero => exact ⟨s, by simp, matched⟩
  | succ k ih =>
    obtain rfl | ⟨s, b, rfl⟩ := List.eq_nil_or_concat s
    · exact absurd (fresh.symm.trans matched) (Nat.succ_ne_zero k).symm
    · rw [List.concat_eq_append, pushAll_concat] at matched
      obtain ⟨before, next⟩ := matched_of_push matched
      obtain ⟨front, rfl, fresh⟩ := ih before
      rw [target_pushAll] at next
      refine ⟨front, ?_, fresh⟩
      rw [List.concat_eq_append, List.append_assoc, List.take_add_one, next, Option.toList_some]

/-- A byte completes the name if the name ends there and the search was fresh where it begins. -/
theorem hit_iff (fresh : m.matched = 0) (nonempty : m.target ≠ []) :
    ((m.pushAll s).push b).1 = true ↔
      ∃ front, s ++ [b] = front ++ m.target ∧ (m.pushAll front).matched = 0 := by
  constructor
  · intro hit
    obtain ⟨last, next⟩ := of_hit hit
    rw [target_pushAll] at last next
    obtain ⟨front, parted, start⟩ := exists_fresh fresh (Eq.refl (m.pushAll s).matched)
    refine ⟨front, ?_, start⟩
    have whole := List.take_add_one (l := m.target) (i := (m.pushAll s).matched)
    rw [last, List.take_length, next, Option.toList_some] at whole
    rw [whole, ← List.append_assoc, ← parted]
  · rintro ⟨front, parted, start⟩
    obtain ⟨k, length⟩ : ∃ k, m.target.length = k + 1 :=
      Nat.exists_eq_succ_of_ne_zero fun zero => nonempty (List.length_eq_zero_iff.mp zero)
    have short : k < m.target.length := by omega
    have next : m.target[k]? = some m.target[k] := List.getElem?_eq_getElem short
    have whole := List.take_add_one (l := m.target) (i := k)
    rw [← length, List.take_length, next, Option.toList_some] at whole
    rw [whole, ← List.append_assoc] at parted
    obtain ⟨rfl, last⟩ := List.append_inj' parted rfl
    obtain rfl := List.singleton_inj.mp last
    have same := m.target_pushAll front
    have before := matched_pushAll_take start (same.symm ▸ short)
    rw [same, ← pushAll_append] at before
    rw [push_last]
    · rw [target_pushAll, before]
      exact next
    · rw [target_pushAll, before]
      exact length.symm

theorem hits_iff (fresh : m.matched = 0) (nonempty : m.target ≠ []) (s : Bytes) (i : Nat) :
    (m.hits s)[i]? = some true ↔ ∃ front rest, s = front ++ m.target ++ rest ∧
      i + 1 = front.length + m.target.length ∧ (m.pushAll front).matched = 0 := by
  rw [hits_getElem?, Option.map_eq_some_iff]
  constructor
  · rintro ⟨b, here, hit⟩
    obtain ⟨front, parted, start⟩ := (hit_iff fresh nonempty).mp hit
    have taken : s.take (i + 1) = front ++ m.target := by
      rw [List.take_add_one, here, Option.toList_some]
      exact parted
    obtain ⟨inside, -⟩ := List.getElem?_eq_some_iff.mp here
    refine ⟨front, s.drop (i + 1), ?_, ?_, start⟩
    · rw [← taken, List.take_append_drop]
    · rw [← List.length_append, ← taken, List.length_take_of_le inside]
  · rintro ⟨front, rest, parted, ends, start⟩
    have inside : i < s.length := by
      rw [parted, List.length_append, List.length_append]
      omega
    have taken : s.take i ++ [s[i]] = front ++ m.target := by
      rw [← List.take_succ_eq_append_getElem inside, ends, ← List.length_append, parted]
      exact List.take_left
    refine ⟨s[i], List.getElem?_eq_getElem inside, ?_⟩
    exact (hit_iff fresh nonempty).mpr ⟨front, taken, start⟩

/-- Behind a byte that the name does not have the search is fresh. -/
theorem matched_of_last (fresh : m.matched = 0)
    (clear : ∀ last ∈ front.getLast?, last ∉ m.target) : (m.pushAll front).matched = 0 := by
  obtain rfl | ⟨before, last, rfl⟩ := List.eq_nil_or_concat front
  · exact fresh
  · rw [List.concat_eq_append] at clear ⊢
    have absent : last ∉ (m.pushAll before).target := by
      rw [target_pushAll]
      exact clear last (by simp)
    rw [pushAll_concat, push_of_not_mem absent]

/-- The name is found where it ends if nothing of it was matched where it begins, and nowhere else.
What is matched is always less than the name and what the stream ends in. So no occurrence is missed
that starts the stream or stands behind a byte that the name does not have. -/
theorem hits_of_fresh (name : Bytes) (nonempty : name ≠ []) (s : Bytes) :
    let m : FieldMatcher := { target := name }
    (∀ i, (m.hits s)[i]? = some true ↔ ∃ front rest, s = front ++ name ++ rest ∧
      i + 1 = front.length + name.length ∧ (m.pushAll front).matched = 0) ∧
    (∀ front, front <+: s → (m.pushAll front).matched < name.length ∧
      name.take (m.pushAll front).matched <:+ front) ∧
    ∀ front rest, s = front ++ name ++ rest → (∀ last ∈ front.getLast?, last ∉ name) →
      (m.hits s)[front.length + name.length - 1]? = some true := by
  intro m
  have hit (i : Nat) : (m.hits s)[i]? = some true ↔ ∃ front rest, s = front ++ name ++ rest ∧
      i + 1 = front.length + name.length ∧ (m.pushAll front).matched = 0 :=
    hits_iff rfl nonempty s i
  refine ⟨hit, ?_, ?_⟩
  · intro front _
    have follows := (Follows.start (m := m) nonempty rfl []).pushAll front
    have same : (m.pushAll front).target = name := m.target_pushAll front
    have short := follows.short
    have suffix := follows.suffix
    rw [same] at short suffix
    exact ⟨short, suffix⟩
  · intro front rest parted clear
    have positive := List.length_pos_iff.mpr nonempty
    apply (hit _).mpr
    exact ⟨front, rest, parted, by omega, matched_of_last rfl clear⟩

/-- A name that begins with a byte twice, and a stream that it occurs in twice. -/
def stutter : FieldMatcher := { target := .ofString "aab" }
def stuttered : Bytes := .ofString "aaab\naab"

/-- One more of that byte hides the first occurrence, and the line end gives way to the second. -/
theorem hits_of_fresh_stutter : (stutter.pushAll (stuttered.take 1)).matched = 1 ∧
    (stutter.hits stuttered)[3]? = some false ∧ (stutter.hits stuttered)[7]? = some true := by
  have absent : ∀ last ∈ (stuttered.take 5).getLast?, last ∉ stutter.target := by decide +kernel
  obtain ⟨-, -, found⟩ := hits_of_fresh stutter.target (by decide +kernel) stuttered
  refine ⟨by decide +kernel, ?_, found (stuttered.take 5) [] (by decide +kernel) absent⟩
  decide +kernel

end CoreLocator.Response.FieldMatcher
