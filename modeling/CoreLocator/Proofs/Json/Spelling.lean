import CoreLocator.Json.Lookup
import CoreLocator.Proofs.Decimal

/-! The texts of JSON values, as the grammar builds them, and the values that they spell. Nothing
here refers to a reader: white space may stand around every token, a string may spell a character by
itself or by an escape, and an object may repeat a key. -/
namespace CoreLocator.Json

open Decimal (Digits)

/-- A character that may stand between tokens. -/
inductive Blank
  | space
  | tab
  | lineFeed
  | carriageReturn
  deriving DecidableEq, Repr

def Blank.byte : Blank → UInt8
  | space => 0x20
  | tab => 0x09
  | lineFeed => 0x0A
  | carriageReturn => 0x0D

abbrev Gap := List Blank

def Gap.text (gap : Gap) : Bytes := gap.map Blank.byte

section Text

structure HexDigit where
  value : Fin 16
  upper : Bool
  deriving DecidableEq, Repr

def HexDigit.byte (digit : HexDigit) : UInt8 :=
  .ofNat <|
    if digit.value.val < 10 then 0x30 + digit.value.val
    else if digit.upper then 0x41 + (digit.value.val - 10)
    else 0x61 + (digit.value.val - 10)

/-- What an escape of one letter can stand for. -/
inductive Letter
  | quote
  | backslash
  | slash
  | backspace
  | formFeed
  | lineFeed
  | carriageReturn
  | tab
  deriving DecidableEq, Repr

def Letter.byte : Letter → UInt8
  | quote => 0x22
  | backslash => 0x5C
  | slash => 0x2F
  | backspace => 0x62
  | formFeed => 0x66
  | lineFeed => 0x6E
  | carriageReturn => 0x72
  | tab => 0x74

def Letter.char : Letter → Char
  | quote => '"'
  | backslash => '\\'
  | slash => '/'
  | backspace => '\x08'
  | formFeed => '\x0C'
  | lineFeed => '\n'
  | carriageReturn => '\r'
  | tab => '\t'

/-- The characters that a string may hold without an escape. -/
def Unescaped (c : Char) : Prop := 0x20 ≤ c.toNat ∧ c ≠ '"' ∧ c ≠ '\\'

instance (c : Char) : Decidable (Unescaped c) := inferInstanceAs (Decidable (_ ∧ _ ∧ _))

/-- A character of a string, or half of one, as it is written. -/
inductive Piece
  | plain (char : Char) (unescaped : Unescaped char)
  | letter (letter : Letter)
  | unit (a b c d : HexDigit)
  deriving DecidableEq, Repr

/-- The code units of a character: two surrogates above U+FFFF, one otherwise. -/
def codeUnits (c : Char) : List Nat :=
  if c.toNat < 0x10000 then [c.toNat]
  else [0xD800 + (c.toNat - 0x10000) / 0x400, 0xDC00 + (c.toNat - 0x10000) % 0x400]

namespace Piece

def text : Piece → Bytes
  | plain c _ => String.utf8EncodeChar c
  | letter l => [0x5C, l.byte]
  | unit a b c d => [0x5C, 0x75, a.byte, b.byte, c.byte, d.byte]

def units : Piece → List Nat
  | plain c _ => codeUnits c
  | letter l => codeUnits l.char
  | unit a b c d => [((a.value * 16 + b.value) * 16 + c.value) * 16 + d.value]

end Piece

/-- What stands between the quotes of a string. -/
abbrev Literal := List Piece

namespace Literal

def text (literal : Literal) : Bytes := literal.flatMap Piece.text
def units (literal : Literal) : List Nat := literal.flatMap Piece.units

/-- The characters of some code units. A surrogate counts only as half of a pair. -/
def chars? : List Nat → Option (List Char)
  | [] => some []
  | n :: units =>
    if 0xD800 ≤ n ∧ n < 0xDC00 then
      match units with
      | [] => none
      | m :: units =>
        if 0xDC00 ≤ m ∧ m < 0xE000 then
          (chars? units).map (Char.ofNat (0x10000 + (n - 0xD800) * 0x400 + (m - 0xDC00)) :: ·)
        else none
    else if 0xDC00 ≤ n ∧ n < 0xE000 then none
    else (chars? units).map (Char.ofNat n :: ·)

/-- The string that a literal denotes, if its escapes are well formed. -/
def string? (literal : Literal) : Option String := (chars? literal.units).map String.ofList

end Literal
end Text

section Number

structure Exponent where
  upper : Bool
  sign : Option Bool
  digits : Digits
  deriving DecidableEq, Repr

/-- A number as it is written; the whole part has no zero in front. -/
structure Numeral where
  negative : Bool
  whole : Nat
  fraction : Option Digits
  exponent : Option Exponent
  deriving DecidableEq, Repr

def fractionText : Option Digits → Bytes
  | none => []
  | some digits => 0x2E :: digits.text

def signText : Option Bool → Bytes
  | none => []
  | some negative => [if negative then 0x2D else 0x2B]

def exponentText : Option Exponent → Bytes
  | none => []
  | some ⟨upper, sign, digits⟩ => (if upper then 0x45 else 0x65) :: (signText sign ++ digits.text)

def Numeral.text (n : Numeral) : Bytes :=
  (if n.negative then [0x2D] else []) ++ Decimal.spell n.whole ++ fractionText n.fraction
    ++ exponentText n.exponent

end Number

mutual

/-- A value as it is written. The first gap of a container stands behind its opening mark. -/
inductive Spelling
  | null
  | bool (value : Bool)
  | number (numeral : Numeral)
  | text (literal : Literal)
  | list (inner : Gap) (items : List Item)
  | object (inner : Gap) (members : List Member)

structure Item where
  before : Gap
  value : Spelling
  after : Gap

structure Member where
  before : Gap
  key : Literal
  beforeColon : Gap
  afterColon : Gap
  value : Spelling
  after : Gap

end

/-- A comma stands before every item but the first. -/
def separator (first : Bool) : Bytes := if first then [] else [0x2C]

def quoted (literal : Literal) : Bytes := 0x22 :: (literal.text ++ [0x22])

/-- A key and everything else before its value. -/
def label (key : Literal) (beforeColon afterColon : Gap) : Bytes :=
  quoted key ++ beforeColon.text ++ [0x3A] ++ afterColon.text

mutual

def Spelling.bytes : Spelling → Bytes
  | .null => [0x6E, 0x75, 0x6C, 0x6C]
  | .bool true => [0x74, 0x72, 0x75, 0x65]
  | .bool false => [0x66, 0x61, 0x6C, 0x73, 0x65]
  | .number numeral => numeral.text
  | .text literal => quoted literal
  | .list inner items => 0x5B :: (inner.text ++ itemsBytes true items ++ [0x5D])
  | .object inner members => 0x7B :: (inner.text ++ membersBytes true members ++ [0x7D])

def itemsBytes (first : Bool) : List Item → Bytes
  | [] => []
  | ⟨before, value, after⟩ :: items =>
    separator first ++ before.text ++ value.bytes ++ after.text ++ itemsBytes false items

def membersBytes (first : Bool) : List Member → Bytes
  | [] => []
  | ⟨before, key, beforeColon, afterColon, value, after⟩ :: members =>
    separator first ++ before.text ++ label key beforeColon afterColon ++ value.bytes ++ after.text
      ++ membersBytes false members

end

/-- A whole text: one value with white space around. -/
structure Source where
  before : Gap
  value : Spelling
  after : Gap

namespace Source

def text (source : Source) : Bytes :=
  source.before.text ++ source.value.bytes ++ source.after.text

end Source
end CoreLocator.Json
