import CoreLocator.Decimal
import CoreLocator.Json.Skim

/-! Numbers as values. Integers are exact as long as they fit a machine word; anything else becomes a
double, made from a word-sized significand and one power of ten. -/
namespace CoreLocator.Json

inductive Number
  | natural (n : Nat)
  | negative (magnitude : Nat)
  | floating (bits : UInt64)
  deriving DecidableEq, Repr

def Number.found : Number → Found
  | natural n => .natural n
  | negative magnitude => .negative magnitude
  | floating bits => .floating bits

namespace Number

def startsWithDigit : Bytes → Bool
  | [] => false
  | b :: _ => Ascii.isDigit b

/-- Digits onto `n`, up to the first that is none or does not fit a word. -/
def takeDigits (n : Nat) : Bytes → Nat × Bytes
  | [] => (n, [])
  | b :: s =>
    if Ascii.isDigit b then
      match Decimal.push? Decimal.wordLimit n b with
      | none => (n, b :: s)
      | some next => takeDigits next s
    else (n, b :: s)

/-- `f` times ten to the `exponent`; none if that is infinite. -/
def scale (f : Float) (exponent : Int) : Option Float :=
  if _low : exponent < -308 then
    if f == 0 then some f
    else scale (f / OfScientific.ofScientific 1 false 308) (exponent + 308)
  else if exponent < 0 then some (f / OfScientific.ofScientific 1 false exponent.natAbs)
  else if 308 < exponent then if f == 0 then some f else none
  else
    let scaled := f * OfScientific.ofScientific 1 false exponent.natAbs
    if scaled.isInf then none else some scaled
termination_by (-exponent).toNat
decreasing_by omega

def signed (positive : Bool) (f : Float) : Number := floating (if positive then f else -f).toBits

def double (positive : Bool) (significand : Nat) (exponent : Int) (rest : Bytes) :
    Except Fault (Number × Bytes) :=
  match scale significand.toUInt64.toFloat exponent with
  | none => .error (.before rest .numberOutOfRange)
  | some f => .ok (signed positive f, rest)

/-- The magnitude of the least integer that is not read as a double. -/
def negativeLimit : Nat := 0x8000000000000000

/-- Exponents are below 2^31. -/
def exponentLimit : Nat := 0x80000000

/-- Digits of an exponent onto `n`; none at the digit that takes it to the limit, with the text
behind that digit. -/
def takeExponent (n : Nat) : Bytes → Option Nat × Bytes
  | [] => (some n, [])
  | b :: s =>
    if Ascii.isDigit b then
      match Decimal.push? exponentLimit n b with
      | none => (none, s)
      | some next => takeExponent next s
    else (some n, b :: s)

def readExponent (positive : Bool) (significand : Nat) (exponent : Int) (s : Bytes) :
    Except Fault (Number × Bytes) :=
  let (up, s) := match s with
    | [] => (true, [])
    | b :: t => if b = 0x2B then (true, t) else if b = 0x2D then (false, t) else (true, b :: t)
  match s with
  | [] => .error (.before [] .endInValue)
  | b :: t =>
    if Ascii.isDigit b then
      match takeExponent (b.toNat - 0x30) t with
      | (some n, rest) => double positive significand (if up then exponent + n else exponent - n) rest
      | (none, rest) =>
        if significand ≠ 0 ∧ up then .error (.before rest .numberOutOfRange)
        else .ok (signed positive 0, skimDigits rest)
    else .error (.before t .invalidNumber)

def readOptionalExponent (positive : Bool) (significand : Nat) (exponent : Int) (s : Bytes) :
    Except Fault (Number × Bytes) :=
  match s with
  | [] => double positive significand exponent []
  | b :: t =>
    if b = 0x65 || b = 0x45 then readExponent positive significand exponent t
    else double positive significand exponent (b :: t)

/-- The number whose fraction `s` holds, behind the point. Digits that no longer fit the significand
are dropped. -/
def readFraction (positive : Bool) (significand : Nat) (exponent : Int) (s : Bytes) :
    Except Fault (Number × Bytes) :=
  let (full, rest) := takeDigits significand s
  let taken := s.length - rest.length
  if taken = 0 ∧ !startsWithDigit rest then
    match rest with
    | [] => .error (.on [] .endInValue)
    | rest => .error (.on rest .invalidNumber)
  else readOptionalExponent positive full (exponent - taken) (skimDigits rest)

/-- A number of which the integer part is read. Digits that no longer fit are made up for by the
exponent. -/
def readTail (positive : Bool) (significand : Nat) (s : Bytes) : Except Fault (Number × Bytes) :=
  let rest := skimDigits s
  let dropped := s.length - rest.length
  match rest with
  | [] => whole dropped []
  | b :: t =>
    if b = 0x2E then readFraction positive significand dropped t
    else if b = 0x65 || b = 0x45 then readExponent positive significand dropped t
    else whole dropped (b :: t)
where
  /-- Minus zero is a double, and so is what is below the least 64-bit integer. -/
  whole (dropped : Nat) (rest : Bytes) : Except Fault (Number × Bytes) :=
    if dropped ≠ 0 then double positive significand dropped rest
    else if positive then .ok (natural significand, rest)
    else if 0 < significand ∧ significand ≤ negativeLimit then .ok (negative significand, rest)
    else .ok (signed false significand.toUInt64.toFloat, rest)

def read (positive : Bool) : Bytes → Except Fault (Number × Bytes)
  | [] => .error (.before [] .endInValue)
  | b :: s =>
    if b = 0x30 then
      if startsWithDigit s then .error (.on s .invalidNumber) else readTail positive 0 s
    else if Ascii.isDigit b then
      let (significand, rest) := takeDigits (b.toNat - 0x30) s
      readTail positive significand rest
    else .error (.before s .invalidNumber)

end Number
end CoreLocator.Json
