import CoreLocator.Bytes
import CoreLocator.Decimal.Shortest
import CoreLocator.Text.Quoted

/-! What can be wrong with a JSON text, and where. A reader knows how much of the text it has left;
line and column follow from that and the whole text. -/
namespace CoreLocator.Json

/-- What stands in a text where something else was expected. -/
inductive Found
  | null
  | bool (value : Bool)
  | natural (value : Nat)
  | negative (magnitude : Nat)
  | floating (bits : UInt64)
  | text (value : String)
  | list
  | object
  deriving DecidableEq, Repr

def Found.message : Found → String
  | null => "null"
  | bool value => s!"boolean `{value}`"
  | natural value => s!"integer `{value}`"
  | negative magnitude => s!"integer `-{magnitude}`"
  | floating bits => s!"floating point `{Decimal.Shortest.render bits}`"
  | text value => s!"string {Text.quoted value}"
  | list => "sequence"
  | object => "map"

inductive Cause
  | endInList
  | endInObject
  | endInString
  | endInValue
  | expectedColon
  | expectedListSeparator
  | expectedObjectSeparator
  | expectedWord
  | expectedValue
  | keyNotString
  | trailingComma
  | trailingText
  | invalidNumber
  | numberOutOfRange
  | invalidEscape
  | controlCharacter
  | loneSurrogate
  | unpairedSurrogate
  | wrongType (found : Found) (expected : String)
  | wrongValue (found : Found) (expected : String)
  | wrongLength (length : Nat) (expected : String)
  | missingField (name : String)
  | duplicateField (name : String)
  deriving DecidableEq, Repr

def Cause.message : Cause → String
  | endInList => "EOF while parsing a list"
  | endInObject => "EOF while parsing an object"
  | endInString => "EOF while parsing a string"
  | endInValue => "EOF while parsing a value"
  | expectedColon => "expected `:`"
  | expectedListSeparator => "expected `,` or `]`"
  | expectedObjectSeparator => "expected `,` or `\x7d`"
  | expectedWord => "expected ident"
  | expectedValue => "expected value"
  | keyNotString => "key must be a string"
  | trailingComma => "trailing comma"
  | trailingText => "trailing characters"
  | invalidNumber => "invalid number"
  | numberOutOfRange => "number out of range"
  | invalidEscape => "invalid escape"
  | controlCharacter =>
    "control character (\\u0000-\\u001F) found while parsing a string"
  | loneSurrogate => "lone leading surrogate in hex escape"
  | unpairedSurrogate => "unexpected end of hex escape"
  | wrongType found expected => s!"invalid type: {found.message}, expected {expected}"
  | wrongValue found expected => s!"invalid value: {found.message}, expected {expected}"
  | wrongLength length expected => s!"invalid length {length}, expected {expected}"
  | missingField name => s!"missing field `{name}`"
  | duplicateField name => s!"duplicate field `{name}`"

/-- A cause, and how many bytes of the text were still unseen when it showed. -/
structure Fault where
  cause : Cause
  unseen : Nat
  deriving DecidableEq, Repr

/-- The fault shows before anything of `rest` is looked at. -/
def Fault.before (rest : Bytes) (cause : Cause) : Fault := ⟨cause, rest.length⟩

/-- The fault is the first byte of `rest`, or that there is none. -/
def Fault.on (rest : Bytes) (cause : Cause) : Fault := ⟨cause, rest.length - 1⟩

/-- Lines and columns as an editor counts them, columns in bytes. -/
structure Position where
  line : Nat
  column : Nat
  deriving DecidableEq, Repr

def Position.after (seen : Bytes) : Position where
  line := seen.count 0x0A + 1
  column := (seen.reverse.takeWhile (· != 0x0A)).length

/-- A fault with its place in the text. -/
structure Diagnosis where
  cause : Cause
  position : Position
  deriving DecidableEq, Repr

def Fault.diagnose (text : Bytes) (fault : Fault) : Diagnosis :=
  ⟨fault.cause, .after (text.take (text.length - fault.unseen))⟩

def Diagnosis.message (d : Diagnosis) : String :=
  s!"{d.cause.message} at line {d.position.line} column {d.position.column}"

end CoreLocator.Json
