import CoreLocator.Bytes

/-! Reading UTF-8, one byte at a time. A character's first byte says how many more it owes and
which values the next of them may have; the first byte that breaks this is reported with the place
where its character began. -/
namespace CoreLocator.Utf8

inductive Fault
  /-- No character starts at `index`; the first `length` bytes there cannot begin one. -/
  | invalid (length index : Nat)
  /-- The text ends inside the character that starts at `index`. -/
  | incomplete (index : Nat)
  deriving DecidableEq, Repr

def Fault.message : Fault → String
  | .invalid length index => s!"invalid utf-8 sequence of {length} bytes from index {index}"
  | .incomplete index => s!"incomplete utf-8 byte sequence from index {index}"

/-- A character of which `read` bytes are known and `owed` more are due, the next of them between
`low` and `high`. -/
structure Pending where
  owed : Nat
  low : UInt8 := 0x80
  high : UInt8 := 0xBF
  read : Nat := 1
  scalar : Nat

/-- The ranges of the second byte leave out longer spellings than needed, surrogates, and everything
above the last character. -/
def Pending.ofFirst? (b : UInt8) : Option Pending :=
  let n := b.toNat
  if b < 0x80 then some { owed := 0, scalar := n }
  else if b < 0xC2 then none
  else if b < 0xE0 then some { owed := 1, scalar := n - 0xC0 }
  else if b = 0xE0 then some { owed := 2, low := 0xA0, scalar := n - 0xE0 }
  else if b = 0xED then some { owed := 2, high := 0x9F, scalar := n - 0xE0 }
  else if b < 0xF0 then some { owed := 2, scalar := n - 0xE0 }
  else if b = 0xF0 then some { owed := 3, low := 0x90, scalar := n - 0xF0 }
  else if b < 0xF4 then some { owed := 3, scalar := n - 0xF0 }
  else if b = 0xF4 then some { owed := 3, high := 0x8F, scalar := n - 0xF0 }
  else none

def Pending.next? (p : Pending) (b : UInt8) : Option Pending :=
  if p.low ≤ b && b ≤ p.high then
    some { owed := p.owed - 1, read := p.read + 1, scalar := 64 * p.scalar + (b.toNat - 0x80) }
  else none

/-- Reads on from `index`, where the character in progress began, or the next one is to begin. -/
def decodeFrom (index : Nat) : Option Pending → Bytes → Except Fault (List Char)
  | none, [] => .ok []
  | some _, [] => .error (.incomplete index)
  | progress, b :: s =>
    let known := match progress with
      | none => Pending.ofFirst? b
      | some p => p.next? b
    match known with
    | none => .error (.invalid (progress.elim 1 Pending.read) index)
    | some p =>
      if p.owed = 0 then
        (decodeFrom (index + p.read) none s).map (Char.ofNat p.scalar :: ·)
      else decodeFrom index (some p) s

def decode (s : Bytes) : Except Fault (List Char) := decodeFrom 0 none s

/-- The text that `s` spells. -/
def text? (s : Bytes) : Option String := (decode s).toOption.map String.ofList

/-- The text that `s` spells, for bytes already known to be UTF-8. -/
def text (s : Bytes) : String := (text? s).getD ""

end CoreLocator.Utf8
