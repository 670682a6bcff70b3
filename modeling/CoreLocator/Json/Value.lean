/-! JSON values as a program builds them, and their text, on one line or indented. -/
namespace CoreLocator.Json

inductive Value
  | null
  | bool (b : Bool)
  | natural (n : Nat)
  | text (s : String)
  | list (items : List Value)
  | object (members : List (String × Value))
  deriving Repr

namespace Value

def ofOption {α : Type} (f : α → Value) : Option α → Value
  | none => null
  | some a => f a

/-- Quotes, backslashes and controls are escaped, the common controls by letter. -/
def escaped (c : Char) : List Char :=
  if c = '"' then ['\\', '"']
  else if c = '\\' then ['\\', '\\']
  else if c = '\n' then ['\\', 'n']
  else if c = '\r' then ['\\', 'r']
  else if c = '\t' then ['\\', 't']
  else if c = '\x08' then ['\\', 'b']
  else if c = '\x0c' then ['\\', 'f']
  else if c.toNat < 0x20 then
    ['\\', 'u', '0', '0', Nat.digitChar (c.toNat / 16), Nat.digitChar (c.toNat % 16)]
  else [c]

def quoted (s : String) : List Char := '"' :: s.toList.flatMap escaped ++ ['"']

/-- How the parts of a container are set out: what stands before an item, before the closing mark,
and between a key and its value. -/
structure Layout where
  beforeItem : Nat → List Char
  beforeClose : Nat → List Char
  colon : List Char

def Layout.oneLine : Layout := ⟨fun _ => [], fun _ => [], [':']⟩

/-- An item a line, two blanks deeper than its container. -/
def Layout.indented : Layout where
  beforeItem depth := '\n' :: List.replicate (2 * (depth + 1)) ' '
  beforeClose depth := '\n' :: List.replicate (2 * depth) ' '
  colon := [':', ' ']

/-- The items with marks around and commas between; nothing at all between marks without items. -/
def Layout.enclose (layout : Layout) (depth : Nat) (opening closing : Char)
    (items : List (List Char)) : List Char :=
  if items.isEmpty then [opening, closing]
  else
    opening :: List.intercalate [','] (items.map (layout.beforeItem depth ++ ·))
      ++ layout.beforeClose depth ++ [closing]

mutual

def write (layout : Layout) (depth : Nat) : Value → List Char
  | null => ['n', 'u', 'l', 'l']
  | bool true => ['t', 'r', 'u', 'e']
  | bool false => ['f', 'a', 'l', 's', 'e']
  | natural n => Nat.toDigits 10 n
  | text s => quoted s
  | list items => layout.enclose depth '[' ']' (writeItems layout (depth + 1) items)
  | object members => layout.enclose depth '\x7b' '\x7d' (writeMembers layout (depth + 1) members)

def writeItems (layout : Layout) (depth : Nat) : List Value → List (List Char)
  | [] => []
  | item :: items => write layout depth item :: writeItems layout depth items

def writeMembers (layout : Layout) (depth : Nat) : List (String × Value) → List (List Char)
  | [] => []
  | (key, value) :: members =>
    (quoted key ++ layout.colon ++ write layout depth value) :: writeMembers layout depth members

end

def compact (v : Value) : String := String.ofList (v.write .oneLine 0)
def pretty (v : Value) : String := String.ofList (v.write .indented 0)

end Value
end CoreLocator.Json
