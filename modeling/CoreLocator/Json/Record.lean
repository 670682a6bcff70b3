import CoreLocator.Json.Container
import CoreLocator.Json.Number
import CoreLocator.Utf8

/-! Reading records: objects with known members, or lists that give the same fields by position.
Members of other names are passed over. A reader refuses what is not of its type and says what it
found instead. -/
namespace CoreLocator.Json

abbrev Reader (α : Type) := Bytes → Except Fault (α × Bytes)

/-- Why the value at the start of `s` is not what was expected. A container is not looked into. -/
def refusal (expected : String) (s : Bytes) : Fault :=
  let wrong (found : Found) (rest : Bytes) : Fault := .before rest (.wrongType found expected)
  let word (letters : Bytes) (found : Found) (t : Bytes) : Fault :=
    match skimWord letters t with
    | .error fault => fault
    | .ok rest => wrong found rest
  let number (positive : Bool) (t : Bytes) : Fault :=
    match Number.read positive t with
    | .error fault => fault
    | .ok (n, rest) => wrong n.found rest
  match s with
  | [] => .on [] .endInValue
  | b :: t =>
    if b = 0x6E then word [0x75, 0x6C, 0x6C] .null t
    else if b = 0x74 then word [0x72, 0x75, 0x65] (.bool true) t
    else if b = 0x66 then word [0x61, 0x6C, 0x73, 0x65] (.bool false) t
    else if b = 0x2D then number false t
    else if Ascii.isDigit b then number true (b :: t)
    else if b = 0x22 then
      match readString t with
      | .error fault => fault
      | .ok (content, rest) => wrong (.text (Utf8.text content)) rest
    else if b = 0x5B then wrong .list (b :: t)
    else if b = 0x7B then wrong .object (b :: t)
    else .on (b :: t) .expectedValue

namespace Reader

def text (expected : String) : Reader String := fun s =>
  match skipBlanks s with
  | [] => .error (.on [] .endInValue)
  | b :: t =>
    if b = 0x22 then (readString t).map fun (content, rest) => (Utf8.text content, rest)
    else .error (refusal expected (b :: t))

/-- An integer from zero up to below the limit. -/
def natural (limit : Nat) (expected : String) : Reader Nat := fun s =>
  match skipBlanks s with
  | [] => .error (.on [] .endInValue)
  | b :: t =>
    let number :=
      if b = 0x2D then some (Number.read false t)
      else if Ascii.isDigit b then some (Number.read true (b :: t))
      else none
    match number with
    | none => .error (refusal expected (b :: t))
    | some (.error fault) => .error fault
    | some (.ok (.natural n, rest)) =>
      if n < limit then .ok (n, rest) else .error (.before rest (.wrongValue (.natural n) expected))
    | some (.ok (.negative n, rest)) => .error (.before rest (.wrongValue (.negative n) expected))
    | some (.ok (.floating bits, rest)) =>
      .error (.before rest (.wrongType (.floating bits) expected))

def optional {α : Type} (inner : Reader α) : Reader (Option α) := fun s =>
  match skipBlanks s with
  | [] => (inner []).map fun (a, rest) => (some a, rest)
  | b :: t =>
    if b = 0x6E then (skimWord [0x75, 0x6C, 0x6C] t).map fun rest => (none, rest)
    else (inner (b :: t)).map fun (a, rest) => (some a, rest)

end Reader

structure Field (σ : Type) where
  name : String
  required : Bool
  read : σ → Reader σ

def Field.of {σ α : Type} (name : String) (required : Bool) (reader : Reader α)
    (set : α → σ → σ) : Field σ where
  name
  required
  read record := fun s => (reader s).map fun (a, rest) => (set a record, rest)

namespace Record

variable {σ : Type}

/-- The text behind the end of an object, if that comes next: where a complaint about the object as
a whole is placed. -/
def behindObject (s : Bytes) : Bytes :=
  match skipBlanks s with
  | [] => []
  | b :: t => if b = 0x7D then t else b :: t

/-- Reads members until the object ends; `seen` are the fields it had so far. A reader that leaves
more than it was given ends the reading. -/
def readMembers (fields : List (Field σ)) (record : σ) (seen : List String) (first : Bool)
    (s : Bytes) : Except Fault ((σ × List String) × Bytes) :=
  match nextKey first s with
  | .error fault => .error fault
  | .ok (none, rest) => .ok ((record, seen), rest)
  | .ok (some key, t) =>
    match fields.find? fun f => Bytes.ofString f.name == key with
    | none =>
      match (skimColon t).bind skim with
      | .error fault => .error fault
      | .ok rest =>
        if _h : rest.length < s.length then readMembers fields record seen false rest
        else .error (.before rest .expectedValue)
    | some field =>
      if seen.contains field.name then
        .error (.before (behindObject t) (.duplicateField field.name))
      else
        match (skimColon t).bind (field.read record) with
        | .error fault => .error fault
        | .ok (record, rest) =>
          if _h : rest.length < s.length then
            readMembers fields record (field.name :: seen) false rest
          else .error (.before rest .expectedValue)
termination_by s.length

/-- Behind all elements that a record can use, its list has to end. -/
def closeList (s : Bytes) : Except Fault Bytes :=
  match skipBlanks s with
  | [] => .error (.on [] .endInList)
  | b :: t =>
    if b = 0x5D then .ok t
    else if b = 0x2C then
      match skipBlanks t with
      | [] => .error (.on [] .trailingText)
      | c :: u => .error (.on (c :: u) (if c = 0x5D then .trailingComma else .trailingText))
    else .error (.on (b :: t) .trailingText)

/-- Reads the fields from `position` on. Where the list ends early, the first required field among
those left is missed. -/
def readElements (expected : String) (record : σ) (position : Nat) (s : Bytes) :
    List (Field σ) → Except Fault (σ × Bytes)
  | [] => (closeList s).map fun rest => (record, rest)
  | field :: fields =>
    match nextElement (position == 0) s with
    | .error fault => .error fault
    | .ok (false, rest) =>
      match (field :: fields).findIdx? (·.required) with
      | none => .ok (record, rest)
      | some i => .error (.before rest (.wrongLength (position + i) expected))
    | .ok (true, t) =>
      match field.read record t with
      | .error fault => .error fault
      | .ok (record, rest) => readElements expected record (position + 1) rest fields

/-- Reads a record over one that holds the values of fields left out. -/
def read (name : String) (fields : List (Field σ)) (default : σ) : Reader σ := fun s =>
  let expected := s!"struct {name}"
  match skipBlanks s with
  | [] => .error (.on [] .endInValue)
  | b :: t =>
    if b = 0x7B then
      match readMembers fields default [] true t with
      | .error fault => .error fault
      | .ok ((record, seen), rest) =>
        match fields.find? fun f => f.required && !seen.contains f.name with
        | none => .ok (record, rest)
        | some field => .error (.before rest (.missingField field.name))
    else if b = 0x5B then
      readElements s!"{expected} with {fields.length} elements" default 0 t fields
    else .error (refusal expected (b :: t))

def decode (name : String) (fields : List (Field σ)) (default : σ) (document : Bytes) :
    Except Diagnosis σ :=
  let outcome := do
    let (record, rest) ← read name fields default document
    checkEnd rest
    return record
  outcome.mapError (Fault.diagnose document)

end Record
end CoreLocator.Json
