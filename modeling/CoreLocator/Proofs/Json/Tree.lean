import CoreLocator.Proofs.Json.Spelling

/-! The values that texts spell, and where a path leads in a value and in its spelling. Both lead to
the same value. -/
namespace CoreLocator.Json

/-- A JSON value. Strings are the code units that they spell, keys are texts. -/
inductive Tree
  | null
  | bool (value : Bool)
  | number (numeral : Numeral)
  | text (units : List Nat)
  | list (items : List Tree)
  | object (members : List (String × Tree))

mutual

/-- The value that is spelled, unless a key's escapes are not well formed. -/
def Spelling.tree? : Spelling → Option Tree
  | .null => some .null
  | .bool value => some (.bool value)
  | .number numeral => some (.number numeral)
  | .text literal => some (.text literal.units)
  | .list _ items => (itemTrees? items).map .list
  | .object _ members => (memberTrees? members).map .object

def itemTrees? : List Item → Option (List Tree)
  | [] => some []
  | ⟨_, value, _⟩ :: items =>
    match value.tree?, itemTrees? items with
    | some tree, some trees => some (tree :: trees)
    | _, _ => none

def memberTrees? : List Member → Option (List (String × Tree))
  | [] => some []
  | ⟨_, key, _, _, value, _⟩ :: members =>
    match key.string?, value.tree?, memberTrees? members with
    | some name, some tree, some trees => some ((name, tree) :: trees)
    | _, _, _ => none

end

namespace Tree

/-- The value that one step leads to: the first member of that name, or the element there. -/
def child? : Tree → Step → Option Tree
  | object members, .key name =>
    (members.find? fun member => Bytes.ofString member.1 == name).map Prod.snd
  | list items, .index n => items[n]?
  | _, _ => none

/-- The value at the end of a path. -/
def follow? (tree : Tree) (path : Path) : Option Tree := path.foldlM child? tree

end Tree

/-- A value inside a text, and what stands before it. -/
structure Place where
  before : Bytes
  value : Spelling

namespace Place

def behind (front : Bytes) (place : Place) : Place := ⟨front ++ place.before, place.value⟩

theorem behind_behind (outer inner : Bytes) (place : Place) :
    (place.behind inner).behind outer = place.behind (outer ++ inner) := by
  rw [behind, behind, behind, List.append_assoc]

/-- What a lookup returns: the bytes of the value, without the quotes of a string. -/
def slice : Place → Slice
  | ⟨before, .text literal⟩ => ⟨before.length + 1, literal.text⟩
  | ⟨before, value⟩ => ⟨before.length, value.bytes⟩

end Place

/-- The item at a position. -/
def item? (first : Bool) : List Item → Nat → Option Place
  | [], _ => none
  | ⟨before, value, _⟩ :: _, 0 => some ⟨separator first ++ before.text, value⟩
  | item :: items, n + 1 => (item? false items n).map (.behind (itemsBytes first [item]))

/-- The first member whose key denotes a name. -/
def member? (first : Bool) (name : Bytes) : List Member → Option Place
  | [] => none
  | member :: members =>
    if member.key.string?.map Bytes.ofString = some name then
      some ⟨separator first ++ member.before.text
        ++ label member.key member.beforeColon member.afterColon, member.value⟩
    else (member? false name members).map (.behind (membersBytes first [member]))

/-- Whether every key denotes a string and can be compared with a name. -/
def keysDenote (members : List Member) : Bool :=
  members.all fun member => member.key.string?.isSome

namespace Spelling

/-- Where one step leads inside a value. -/
def child? : Spelling → Step → Option Place
  | object inner members, .key name =>
    (member? true name members).map (.behind (0x7B :: inner.text))
  | list inner items, .index n => (item? true items n).map (.behind (0x5B :: inner.text))
  | _, _ => none

/-- Where a path leads inside a value. -/
def select? (value : Spelling) : Path → Option Place
  | [] => some ⟨[], value⟩
  | step :: path => do
    let place ← value.child? step
    let found ← place.value.select? path
    return found.behind place.before

/-- A path may be followed in two parts. -/
theorem select?_append (value : Spelling) (path more : Path) :
    value.select? (path ++ more) = (value.select? path).bind fun place =>
      (place.value.select? more).map (.behind place.before) := by
  induction path generalizing value with
  | nil =>
    rw [List.nil_append, select?, Option.bind_some]
    cases value.select? more <;> rfl
  | cons step path ih =>
    rw [List.cons_append, select?, select?]
    cases value.child? step with
    | none => rfl
    | some place =>
      simp only [Option.bind_eq_bind, Option.bind_some, Option.pure_def, ih]
      cases place.value.select? path with
      | none => rfl
      | some inner =>
        rw [Option.bind_some, Option.bind_some]
        change _ = (inner.value.select? more).map (Place.behind (place.before ++ inner.before))
        cases inner.value.select? more with
        | none => rfl
        | some found => exact congrArg some (found.behind_behind place.before inner.before)

/-- Where one step leads a reader that decodes every key of an object and refuses the object if one
of them denotes no string. -/
def enter? : Spelling → Step → Option Place
  | object inner members, .key name =>
    if keysDenote members then (object inner members).child? (.key name) else none
  | value, step => value.child? step

/-- Where a path leads such a reader. -/
def reach? (value : Spelling) : Path → Option Place
  | [] => some ⟨[], value⟩
  | step :: path => do
    let place ← value.enter? step
    let found ← place.value.reach? path
    return found.behind place.before

end Spelling

namespace Source

def tree? (source : Source) : Option Tree := source.value.tree?

def select? (source : Source) (path : Path) : Option Place :=
  (source.value.select? path).map (.behind source.before.text)

def reach? (source : Source) (path : Path) : Option Place :=
  (source.value.reach? path).map (.behind source.before.text)

end Source

section Trees
variable {value : Spelling} {tree : Tree}

theorem memberTrees?_cons {before beforeColon afterColon after : Gap} {key : Literal}
    {value : Spelling} {members : List Member} {trees : List (String × Tree)}
    (readable : memberTrees? (⟨before, key, beforeColon, afterColon, value, after⟩ :: members) =
      some trees) :
    ∃ name tree later, key.string? = some name ∧ value.tree? = some tree ∧
      memberTrees? members = some later ∧ trees = (name, tree) :: later := by
  rw [memberTrees?] at readable
  split at readable
  · next name tree later denotes spells more =>
    exact ⟨name, tree, later, denotes, spells, more, (Option.some.inj readable).symm⟩
  · contradiction

theorem itemTrees?_cons {before after : Gap} {value : Spelling} {items : List Item}
    {trees : List Tree} (readable : itemTrees? (⟨before, value, after⟩ :: items) = some trees) :
    ∃ tree later, value.tree? = some tree ∧ itemTrees? items = some later ∧
      trees = tree :: later := by
  rw [itemTrees?] at readable
  split at readable
  · next tree later spells more =>
    exact ⟨tree, later, spells, more, (Option.some.inj readable).symm⟩
  · contradiction

/-- Only an object spells an object. -/
theorem object_of_tree {trees : List (String × Tree)}
    (spells : value.tree? = some (.object trees)) :
    ∃ inner members, value = .object inner members ∧ memberTrees? members = some trees := by
  cases value with
  | object inner members =>
    obtain ⟨spelled, readable, same⟩ := Option.map_eq_some_iff.mp spells
    obtain rfl := Tree.object.inj same
    exact ⟨inner, members, rfl, readable⟩
  | list inner items =>
    obtain ⟨spelled, -, same⟩ := Option.map_eq_some_iff.mp spells
    contradiction
  | _ => cases Option.some.inj spells

theorem item?_tree (first : Bool) {items : List Item} {trees : List Tree}
    (readable : itemTrees? items = some trees) (n : Nat) :
    (item? first items n).map (·.value.tree?) = trees[n]?.map some := by
  induction items generalizing first trees n with
  | nil =>
    obtain rfl := Option.some.inj readable
    rfl
  | cons item items ih =>
    obtain ⟨before, value, after⟩ := item
    obtain ⟨tree, later, spells, more, rfl⟩ := itemTrees?_cons readable
    cases n with
    | zero => exact congrArg some spells
    | succ n =>
      rw [item?, Option.map_map, List.getElem?_cons_succ, ← ih false more n]
      rfl

theorem member?_tree (first : Bool) {members : List Member} {trees : List (String × Tree)}
    (readable : memberTrees? members = some trees) (name : Bytes) :
    (member? first name members).map (·.value.tree?) =
      (Tree.child? (.object trees) (.key name)).map some := by
  induction members generalizing first trees with
  | nil =>
    obtain rfl := Option.some.inj readable
    rfl
  | cons member members ih =>
    obtain ⟨before, literal, beforeColon, afterColon, value, after⟩ := member
    obtain ⟨text, tree, later, denotes, spells, more, rfl⟩ := memberTrees?_cons readable
    have ih := ih false more
    rw [Tree.child?] at ih ⊢
    rw [member?, denotes, Option.map_some]
    by_cases same : Bytes.ofString text = name
    · have named : (Bytes.ofString (text, tree).1 == name) = true := beq_iff_eq.mpr same
      rw [if_pos (congrArg some same), List.find?_cons, named]
      exact congrArg some spells
    · have other : (Bytes.ofString (text, tree).1 == name) = false := beq_eq_false_iff_ne.mpr same
      rw [if_neg (fun equal => same (Option.some.inj equal)), List.find?_cons, other, ← ih,
        Option.map_map]
      rfl

/-- A step leads to the same value in a spelling and in what it spells. -/
theorem child?_tree (spells : value.tree? = some tree) (step : Step) :
    (value.child? step).map (·.value.tree?) = (tree.child? step).map some := by
  cases value with
  | null => obtain rfl := Option.some.inj spells; cases step <;> rfl
  | bool value => obtain rfl := Option.some.inj spells; cases step <;> rfl
  | number numeral => obtain rfl := Option.some.inj spells; cases step <;> rfl
  | text literal => obtain rfl := Option.some.inj spells; cases step <;> rfl
  | list inner items =>
    obtain ⟨trees, readable, rfl⟩ := Option.map_eq_some_iff.mp spells
    cases step with
    | key name => rfl
    | index n =>
      rw [Spelling.child?, Option.map_map]
      exact item?_tree true readable n
  | object inner members =>
    obtain ⟨trees, readable, rfl⟩ := Option.map_eq_some_iff.mp spells
    cases step with
    | index n => rfl
    | key name =>
      rw [Spelling.child?, Option.map_map]
      exact member?_tree true readable name

/-- A path leads to the same value in a spelling and in what it spells. -/
theorem select?_tree (spells : value.tree? = some tree) (path : Path) :
    (value.select? path).map (·.value.tree?) = (tree.follow? path).map some := by
  induction path generalizing value tree with
  | nil => exact congrArg some spells
  | cons step path ih =>
    have child := child?_tree spells step
    rw [Spelling.select?, Tree.follow?, List.foldlM_cons]
    cases found : value.child? step with
    | none =>
      rw [found] at child
      rw [Option.map_eq_none_iff.mp child.symm]
      rfl
    | some place =>
      rw [found] at child
      obtain ⟨next, reached, same⟩ := Option.map_eq_some_iff.mp child.symm
      have later := ih same.symm
      rw [Tree.follow?] at later
      rw [reached, Option.bind_eq_bind, Option.bind_eq_bind, Option.bind_some, Option.bind_some,
        ← later]
      cases place.value.select? path <;> rfl

theorem child?_readable (spells : value.tree? = some tree) {step : Step} {place : Place}
    (found : value.child? step = some place) :
    ∃ reached, tree.child? step = some reached ∧ place.value.tree? = some reached := by
  have child := child?_tree spells step
  rw [found] at child
  obtain ⟨reached, followed, same⟩ := Option.map_eq_some_iff.mp child.symm
  exact ⟨reached, followed, same.symm⟩

end Trees

section Readers

theorem keysDenote_cons {member : Member} {members : List Member}
    (denote : keysDenote (member :: members) = true) :
    (∃ name, member.key.string? = some name) ∧ keysDenote members = true := by
  rw [keysDenote, List.all_cons, Bool.and_eq_true] at denote
  exact ⟨Option.isSome_iff_exists.mp denote.1, denote.2⟩

theorem keysDenote_of_trees {members : List Member} {trees : List (String × Tree)}
    (readable : memberTrees? members = some trees) : keysDenote members = true := by
  induction members generalizing trees with
  | nil => rfl
  | cons member members ih =>
    obtain ⟨before, key, beforeColon, afterColon, value, after⟩ := member
    obtain ⟨name, tree, later, denotes, -, more, -⟩ := memberTrees?_cons readable
    rw [keysDenote, List.all_cons, denotes]
    exact ih more

theorem enter?_eq_some {value : Spelling} {step : Step} {place : Place}
    (entered : value.enter? step = some place) : value.child? step = some place := by
  unfold Spelling.enter? at entered
  split at entered
  · split at entered
    · exact entered
    · contradiction
  · exact entered

theorem enter?_of_tree {value : Spelling} {tree : Tree} (spells : value.tree? = some tree)
    (step : Step) : value.enter? step = value.child? step := by
  unfold Spelling.enter?
  split
  · next inner members name =>
    obtain ⟨trees, readable, -⟩ := Option.map_eq_some_iff.mp spells
    exact if_pos (keysDenote_of_trees readable)
  · rfl

/-- Where all keys denote strings, a reader is led wherever the path leads. -/
theorem reach?_of_tree {value : Spelling} {tree : Tree} (spells : value.tree? = some tree)
    (path : Path) : value.reach? path = value.select? path := by
  induction path generalizing value tree with
  | nil => rfl
  | cons step path ih =>
    rw [Spelling.reach?, Spelling.select?, enter?_of_tree spells]
    cases found : value.child? step with
    | none => rfl
    | some place =>
      obtain ⟨reached, -, spells⟩ := child?_readable spells found
      rw [Option.bind_eq_bind, Option.bind_some, Option.bind_some, ih spells]

end Readers

section Sources
variable {source : Source} {tree : Tree}

theorem select?_source_tree (spells : source.tree? = some tree) (path : Path) :
    (source.select? path).map (·.value.tree?) = (tree.follow? path).map some := by
  rw [← select?_tree spells path, Source.select?, Option.map_map]
  rfl

end Sources

end CoreLocator.Json
