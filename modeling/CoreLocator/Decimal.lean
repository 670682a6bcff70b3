import CoreLocator.Bytes

/-! Decimal numbers below a limit. A number that does not fit is refused at the digit that takes it
past the limit, so nothing ever wraps. -/
namespace CoreLocator.Decimal

/-- Machine-sized counts and lengths are below this. -/
def wordLimit : Nat := UInt64.size

/-- Puts one more digit behind `n`, unless the result reaches the limit. -/
def push? (limit n : Nat) (digit : UInt8) : Option Nat :=
  let next := 10 * n + (digit.toNat - 0x30)
  if next < limit then some next else none

def below? (limit : Nat) (digits : Bytes) : Option Nat := digits.foldlM (push? limit) 0

def skipPlus : Bytes → Bytes
  | [] => []
  | b :: s => if b = 0x2B then s else b :: s

/-- The number at the start of `s`, behind blanks and at most one plus sign. No digits count as
zero, and so does a number that does not fit a machine word. -/
def leading (s : Bytes) : Nat :=
  (below? wordLimit ((skipPlus (s.dropWhile Ascii.isSpace)).takeWhile Ascii.isDigit)).getD 0

/-- The number that all of `s` spells: at most one plus sign, then digits only, at least one. -/
def whole? (limit : Nat) (s : Bytes) : Option Nat :=
  match skipPlus s with
  | [] => none
  | digits => if digits.all Ascii.isDigit then below? limit digits else none

end CoreLocator.Decimal
