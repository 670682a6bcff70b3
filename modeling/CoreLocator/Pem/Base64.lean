import CoreLocator.Bytes

/-! Base64 with blanks anywhere. The last group may be written without its padding, and the bits
that the padding stands for are not looked at. -/
namespace CoreLocator.Base64

inductive Symbol
  | sextet (value : Nat)
  | pad
  deriving DecidableEq, Repr

/-- All of ASCII's white space, the vertical tab among it. -/
def isBlank (b : UInt8) : Bool := b == 0x20 || (0x09 ≤ b && b ≤ 0x0D)

def symbol? (b : UInt8) : Option Symbol :=
  if 0x41 ≤ b ∧ b ≤ 0x5A then some (.sextet (b.toNat - 0x41))
  else if 0x61 ≤ b ∧ b ≤ 0x7A then some (.sextet (b.toNat - 0x61 + 26))
  else if 0x30 ≤ b ∧ b ≤ 0x39 then some (.sextet (b.toNat - 0x30 + 52))
  else if b = 0x2B then some (.sextet 62)
  else if b = 0x2F then some (.sextet 63)
  else if b = 0x3D then some .pad
  else none

/-- The sextets before the padding, and how much padding there is; nothing else may follow it. -/
def unpad? : List Symbol → Option (List Nat × Nat)
  | [] => some ([], 0)
  | .sextet n :: rest => (unpad? rest).map fun (sextets, pads) => (n :: sextets, pads)
  | .pad :: rest => if rest.all (· == .pad) then some ([], rest.length + 1) else none

/-- Three bytes for four sextets, and as many whole bytes as there are for the last ones. -/
def join? : List Nat → Option Bytes
  | [] => some []
  | [_] => none
  | [a, b] => some [(a * 4 + b / 16).toUInt8]
  | [a, b, c] => some [(a * 4 + b / 16).toUInt8, (b % 16 * 16 + c / 4).toUInt8]
  | a :: b :: c :: d :: rest =>
    (join? rest).map fun bytes =>
      (a * 4 + b / 16).toUInt8 :: (b % 16 * 16 + c / 4).toUInt8 :: (c % 4 * 64 + d).toUInt8 :: bytes

def decode? (s : Bytes) : Option Bytes := do
  let symbols ← (s.filter (!isBlank ·)).mapM symbol?
  let (sextets, pads) ← unpad? symbols
  if pads = 0 ∨ (pads ≤ 2 ∧ (sextets.length + pads) % 4 = 0) then join? sextets else none

end CoreLocator.Base64
