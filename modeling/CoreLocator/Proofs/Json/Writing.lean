import CoreLocator.Json.Value
import CoreLocator.Proofs.Json.Literal
import CoreLocator.Proofs.Json.Tree

/-! What is written as JSON is spelled by the grammar as long as nothing but blanks stands between
the tokens, and the value that it spells is the one that was written. -/
namespace CoreLocator.Json

open Utf8 (encode encode_append)

mutual

/-- The value that is to be spelled. -/
def Value.tree : Value → Tree
  | .null => .null
  | .bool value => .bool value
  | .natural n => .number ⟨false, n, none, none⟩
  | .text s => .text (s.toList.flatMap codeUnits)
  | .list items => .list (Value.itemTrees items)
  | .object members => .object (Value.memberTrees members)

def Value.itemTrees : List Value → List Tree
  | [] => []
  | item :: items => item.tree :: Value.itemTrees items

def Value.memberTrees : List (String × Value) → List (String × Tree)
  | [] => []
  | (name, value) :: members => (name, value.tree) :: Value.memberTrees members

end

section Strings

theorem encode_digitChar : ∀ n : Fin 16,
    String.utf8EncodeChar (Nat.digitChar n.val) = [HexDigit.byte ⟨n, false⟩] := by
  decide

/-- What stands for a character between quotes spells its code units. -/
theorem exists_piece (c : Char) :
    ∃ piece : Piece, piece.text = encode (Value.escaped c) ∧ piece.units = codeUnits c := by
  unfold Value.escaped
  split
  · next same => exact ⟨.letter .quote, rfl, same ▸ rfl⟩
  split
  · next same => exact ⟨.letter .backslash, rfl, same ▸ rfl⟩
  split
  · next same => exact ⟨.letter .lineFeed, rfl, same ▸ rfl⟩
  split
  · next same => exact ⟨.letter .carriageReturn, rfl, same ▸ rfl⟩
  split
  · next same => exact ⟨.letter .tab, rfl, same ▸ rfl⟩
  split
  · next same => exact ⟨.letter .backspace, rfl, same ▸ rfl⟩
  split
  · next same => exact ⟨.letter .formFeed, rfl, same ▸ rfl⟩
  split
  · next control =>
    let high : Fin 16 := ⟨c.toNat / 16, by omega⟩
    let low : Fin 16 := ⟨c.toNat % 16, by omega⟩
    refine ⟨.unit ⟨0, false⟩ ⟨0, false⟩ ⟨high, false⟩ ⟨low, false⟩, ?_, ?_⟩
    · have first := encode_digitChar high
      have second := encode_digitChar low
      simp only [encode, List.flatMap_cons, List.flatMap_nil, List.append_nil]
      rw [show Nat.digitChar (c.toNat / 16) = Nat.digitChar high.val from rfl, first,
        show Nat.digitChar (c.toNat % 16) = Nat.digitChar low.val from rfl, second]
      rfl
    · rw [codeUnits, if_pos (by omega), Piece.units]
      have value : ((0 * 16 + 0) * 16 + c.toNat / 16) * 16 + c.toNat % 16 = c.toNat := by omega
      exact congrArg (fun n => [n]) value
  · next quote backslash _ _ _ _ _ visible =>
    have unescaped : Unescaped c := ⟨by omega, quote, backslash⟩
    exact ⟨.plain c unescaped, (List.append_nil _).symm, rfl⟩

theorem exists_pieces (chars : List Char) : ∃ literal : Literal,
    literal.text = encode (chars.flatMap Value.escaped) ∧
      literal.units = chars.flatMap codeUnits := by
  induction chars with
  | nil => exact ⟨[], rfl, rfl⟩
  | cons c chars ih =>
    obtain ⟨literal, written, spells⟩ := ih
    obtain ⟨piece, escaped, units⟩ := exists_piece c
    refine ⟨piece :: literal, ?_, ?_⟩
    · rw [Literal.text, List.flatMap_cons, ← Literal.text, List.flatMap_cons, encode_append,
        escaped, written]
    · rw [Literal.units, List.flatMap_cons, ← Literal.units, List.flatMap_cons, units, spells]

theorem exists_quoted (s : String) : ∃ literal : Literal,
    quoted literal = encode (Value.quoted s) ∧ literal.units = s.toList.flatMap codeUnits := by
  obtain ⟨literal, written, spells⟩ := exists_pieces s.toList
  refine ⟨literal, ?_, spells⟩
  rw [quoted, written, Value.quoted, encode_append]
  rfl

/-- Code units of characters denote these characters. -/
theorem chars?_flatMap (chars : List Char) :
    Literal.chars? (chars.flatMap codeUnits) = some chars := by
  induction chars with
  | nil => rfl
  | cons c chars ih => rw [List.flatMap_cons, chars?_codeUnits, ih, Option.map_some]

theorem string?_of_units {literal : Literal} {s : String}
    (spells : literal.units = s.toList.flatMap codeUnits) : literal.string? = some s := by
  rw [Literal.string?, spells, chars?_flatMap, Option.map_some, String.ofList_toList]

end Strings

namespace Value

/-- A layout that has nothing but blanks between the tokens. -/
structure Gaps where
  beforeItem : Nat → Gap
  beforeClose : Nat → Gap
  behindColon : Gap

end Value

def Blank.char : Blank → Char
  | space => ' '
  | tab => '\t'
  | lineFeed => '\n'
  | carriageReturn => '\r'

def Gap.chars (gap : Gap) : List Char := gap.map Blank.char

theorem encode_chars (gap : Gap) : encode gap.chars = gap.text := by
  induction gap with
  | nil => rfl
  | cons blank gap ih =>
    have one : String.utf8EncodeChar blank.char = [blank.byte] := by cases blank <;> decide
    change String.utf8EncodeChar blank.char ++ encode (Gap.chars gap) = blank.byte :: Gap.text gap
    rw [one, ih]
    rfl

namespace Value

def Gaps.layout (gaps : Gaps) : Layout where
  beforeItem depth := (gaps.beforeItem depth).chars
  beforeClose depth := (gaps.beforeClose depth).chars
  colon := ':' :: gaps.behindColon.chars

def Gaps.indented : Gaps where
  beforeItem depth := .lineFeed :: List.replicate (2 * (depth + 1)) .space
  beforeClose depth := .lineFeed :: List.replicate (2 * depth) .space
  behindColon := [.space]

theorem layout_indented : Gaps.indented.layout = .indented := by
  simp only [Gaps.layout, Gaps.indented, Gap.chars, List.map_cons, List.map_replicate, List.map_nil,
    Layout.indented]
  rfl

/-- What stands between the marks of a container with these parts. -/
def Layout.inner (layout : Layout) (depth : Nat) (parts : List (List Char)) : List Char :=
  List.intercalate [','] (parts.map (layout.beforeItem depth ++ ·)) ++ layout.beforeClose depth

variable {layout : Layout} {depth : Nat} {part next : List Char} {parts : List (List Char)}

theorem Layout.enclose_cons (opening closing : Char) :
    layout.enclose depth opening closing (part :: parts) =
      opening :: (layout.inner depth (part :: parts) ++ [closing]) := rfl

theorem Layout.inner_singleton :
    layout.inner depth [part] = layout.beforeItem depth ++ (part ++ layout.beforeClose depth) := by
  simp [inner, List.intercalate]

theorem Layout.inner_cons : layout.inner depth (part :: next :: parts) =
    layout.beforeItem depth ++ (part ++ ',' :: layout.inner depth (next :: parts)) := by
  simp [inner, List.intercalate]

end Value

section Values
variable (gaps : Value.Gaps)

theorem encode_toDigits (n : Nat) : encode (Nat.toDigits 10 n) = Decimal.spell n := by
  rw [Decimal.spell, Bytes.ofString, Nat.toString_eq_ofList_toDigits, String.toList_ofList]
  rfl

variable {gaps} {depth : Nat} {part next : List Char} {parts : List (List Char)}

theorem encode_inner_singleton : encode (gaps.layout.inner depth [part]) =
    (gaps.beforeItem depth).text ++ (encode part ++ (gaps.beforeClose depth).text) := by
  rw [Value.Layout.inner_singleton, encode_append, encode_append, ← encode_chars, ← encode_chars]
  rfl

theorem encode_inner_cons : encode (gaps.layout.inner depth (part :: next :: parts)) =
    (gaps.beforeItem depth).text ++
      (encode part ++ 0x2C :: encode (gaps.layout.inner depth (next :: parts))) := by
  rw [Value.Layout.inner_cons, encode_append, encode_append, ← encode_chars]
  rfl

theorem encode_member {key : Literal} {name : String} {written : List Char}
    (quotes : quoted key = encode (Value.quoted name)) :
    encode (Value.quoted name ++ gaps.layout.colon ++ written) =
      label key [] gaps.behindColon ++ encode written := by
  rw [encode_append, encode_append, ← quotes, label, ← encode_chars gaps.behindColon]
  simp [Gap.text, Value.Gaps.layout, encode]
  rfl

/-- A comma stands before an item that is not the first. -/
theorem itemsBytes_behind {items : List Item} (nonempty : items ≠ []) :
    itemsBytes false items = 0x2C :: itemsBytes true items := by
  cases items with
  | nil => contradiction
  | cons item items => cases item; rfl

theorem membersBytes_behind {members : List Member} (nonempty : members ≠ []) :
    membersBytes false members = 0x2C :: membersBytes true members := by
  cases members with
  | nil => contradiction
  | cons member members => cases member; rfl

variable (gaps)

mutual

/-- A written value is spelled by the grammar. -/
theorem exists_spelling (depth : Nat) (value : Value) : ∃ spelling : Spelling,
    spelling.bytes = encode (value.write gaps.layout depth) ∧
      spelling.tree? = some value.tree := by
  cases value with
  | null => exact ⟨.null, rfl, rfl⟩
  | bool value => cases value <;> exact ⟨.bool _, rfl, rfl⟩
  | natural n =>
    refine ⟨.number ⟨false, n, none, none⟩, ?_, rfl⟩
    rw [Value.write, encode_toDigits]
    simp [Spelling.bytes, Numeral.text, fractionText, exponentText]
  | text s =>
    obtain ⟨literal, written, spells⟩ := exists_quoted s
    exact ⟨.text literal, written, congrArg (some <| Tree.text ·) spells⟩
  | list items =>
    cases items with
    | nil => exact ⟨.list [] [], rfl, rfl⟩
    | cons item items =>
      obtain ⟨spelled, written, spells⟩ := exists_items depth (item :: items) (List.cons_ne_nil _ _)
      refine ⟨.list [] spelled, ?_, by rw [Spelling.tree?, spells]; rfl⟩
      rw [Value.write, Value.writeItems, Value.Layout.enclose_cons, ← Value.writeItems]
      change 0x5B :: (itemsBytes true spelled ++ [0x5D]) = 0x5B :: encode (_ ++ [']'])
      rw [written, encode_append]
      rfl
  | object members =>
    cases members with
    | nil => exact ⟨.object [] [], rfl, rfl⟩
    | cons member members =>
      obtain ⟨spelled, written, spells⟩ :=
        exists_members depth (member :: members) (List.cons_ne_nil _ _)
      refine ⟨.object [] spelled, ?_, by rw [Spelling.tree?, spells]; rfl⟩
      rw [Value.write, Value.writeMembers, Value.Layout.enclose_cons, ← Value.writeMembers]
      change 0x7B :: (membersBytes true spelled ++ [0x7D]) = 0x7B :: encode (_ ++ ['\x7d'])
      rw [written, encode_append]
      rfl

theorem exists_items (depth : Nat) (items : List Value) (nonempty : items ≠ []) :
    ∃ spelled : List Item, itemsBytes true spelled =
        encode (gaps.layout.inner depth (Value.writeItems gaps.layout (depth + 1) items)) ∧
      itemTrees? spelled = some (Value.itemTrees items) := by
  cases items with
  | nil => contradiction
  | cons item items =>
    obtain ⟨spelling, written, spells⟩ := exists_spelling (depth + 1) item
    have later := exists_items depth items
    cases items with
    | nil =>
      refine ⟨[⟨gaps.beforeItem depth, spelling, gaps.beforeClose depth⟩], ?_, ?_⟩
      · rw [Value.writeItems, Value.writeItems, encode_inner_singleton, ← written]
        simp [itemsBytes, separator]
      · rw [itemTrees?, spells]
        rfl
    | cons next items =>
      obtain ⟨spelled, rest, more⟩ := later (List.cons_ne_nil _ _)
      have behind : spelled ≠ [] := by
        rintro rfl
        simp [itemTrees?, Value.itemTrees] at more
      refine ⟨⟨gaps.beforeItem depth, spelling, []⟩ :: spelled, ?_, ?_⟩
      · rw [Value.writeItems, Value.writeItems, encode_inner_cons, ← Value.writeItems, ← written,
          ← rest, ← itemsBytes_behind behind]
        simp [itemsBytes, separator, Gap.text]
      · rw [itemTrees?, spells, more]
        rfl

theorem exists_members (depth : Nat) (members : List (String × Value))
    (nonempty : members ≠ []) :
    ∃ spelled : List Member, membersBytes true spelled =
        encode (gaps.layout.inner depth (Value.writeMembers gaps.layout (depth + 1) members)) ∧
      memberTrees? spelled = some (Value.memberTrees members) := by
  cases members with
  | nil => contradiction
  | cons member members =>
    obtain ⟨name, value⟩ := member
    obtain ⟨spelling, written, spells⟩ := exists_spelling (depth + 1) value
    obtain ⟨key, quotes, units⟩ := exists_quoted name
    have part : encode (Value.quoted name ++ gaps.layout.colon ++
        value.write gaps.layout (depth + 1)) = label key [] gaps.behindColon ++ spelling.bytes := by
      rw [encode_member quotes, written]
    have later := exists_members depth members
    cases members with
    | nil =>
      refine ⟨[⟨gaps.beforeItem depth, key, [], gaps.behindColon, spelling,
        gaps.beforeClose depth⟩], ?_, ?_⟩
      · rw [Value.writeMembers, Value.writeMembers, encode_inner_singleton, part]
        simp [membersBytes, separator]
      · rw [memberTrees?, string?_of_units units, spells]
        rfl
    | cons next members =>
      obtain ⟨spelled, rest, more⟩ := later (List.cons_ne_nil _ _)
      have behind : spelled ≠ [] := by
        rintro rfl
        simp [memberTrees?, Value.memberTrees] at more
      refine ⟨⟨gaps.beforeItem depth, key, [], gaps.behindColon, spelling, []⟩ :: spelled, ?_, ?_⟩
      · rw [Value.writeMembers, Value.writeMembers, encode_inner_cons, ← Value.writeMembers, part,
          ← rest, ← membersBytes_behind behind]
        simp [membersBytes, separator, Gap.text]
      · rw [memberTrees?, string?_of_units units, spells, more]
        rfl

end

theorem exists_spelling_pretty (value : Value) : ∃ spelling : Spelling,
    spelling.bytes = Bytes.ofString value.pretty ∧ spelling.tree? = some value.tree := by
  obtain ⟨spelling, written, spells⟩ := exists_spelling .indented 0 value
  refine ⟨spelling, ?_, spells⟩
  rw [written, Value.layout_indented, Value.pretty, Bytes.ofString, String.toList_ofList]
  rfl

/-- The members of an object spell its names and values in their order. -/
theorem map_members {members : List Member} {trees : List (String × Tree)}
    (readable : memberTrees? members = some trees) :
    members.map (fun member => (member.key.string?, member.value.tree?)) =
      trees.map fun tree => (some tree.1, some tree.2) := by
  induction members generalizing trees with
  | nil =>
    obtain rfl := Option.some.inj readable
    rfl
  | cons member members ih =>
    obtain ⟨before, key, beforeColon, afterColon, value, after⟩ := member
    obtain ⟨name, tree, later, denotes, spells, more, rfl⟩ := memberTrees?_cons readable
    rw [List.map_cons, List.map_cons, ih more, denotes, spells]

end Values
end CoreLocator.Json
