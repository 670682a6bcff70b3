/-! Byte strings and the ASCII classes of the wire formats. Data is a plain list, so that what a
reader leaves is a suffix of what it was given. -/
namespace CoreLocator

abbrev Bytes := List UInt8

/-- The UTF-8 form of a text. -/
def Bytes.ofString (s : String) : Bytes := s.toList.flatMap String.utf8EncodeChar

namespace Ascii

def isDigit (b : UInt8) : Bool := 0x30 ≤ b && b ≤ 0x39

/-- Tab, line feed, form feed, carriage return and space; the vertical tab is not one of them. -/
def isSpace (b : UInt8) : Bool := b == 0x20 || b == 0x09 || b == 0x0A || b == 0x0C || b == 0x0D

/-- Visible characters: neither space nor control, and nothing above 0x7E. -/
def isGraphic (b : UInt8) : Bool := 0x21 ≤ b && b ≤ 0x7E

def isLetter (b : UInt8) : Bool := (0x41 ≤ b && b ≤ 0x5A) || (0x61 ≤ b && b ≤ 0x7A)

def hexDigit? (b : UInt8) : Option Nat :=
  if isDigit b then some (b.toNat - 0x30)
  else if 0x41 ≤ b && b ≤ 0x46 then some (b.toNat - 0x41 + 10)
  else if 0x61 ≤ b && b ≤ 0x66 then some (b.toNat - 0x61 + 10)
  else none

end Ascii

namespace Bytes

/-- Two line ends in a row close a header section. -/
def blankLine : Bytes := [0x0D, 0x0A, 0x0D, 0x0A]

/-- What follows `start`, where `s` starts with it. -/
def after? : Bytes → Bytes → Option Bytes
  | [], s => some s
  | _ :: _, [] => none
  | a :: start, b :: s => if a = b then after? start s else none

/-- What comes before `tail`, where `s` ends with it. -/
def before? (tail s : Bytes) : Option Bytes :=
  (after? tail.reverse s.reverse).map List.reverse

/-- What stands before the first `separator` and what behind it. -/
def cut? (separator : UInt8) : Bytes → Option (Bytes × Bytes)
  | [] => none
  | b :: s =>
    if b = separator then some ([], s)
    else (cut? separator s).map fun (front, rest) => (b :: front, rest)

theorem length_of_cut? {separator : UInt8} {s front rest : Bytes}
    (h : cut? separator s = some (front, rest)) : rest.length < s.length := by
  induction s generalizing front with
  | nil => simp [cut?] at h
  | cons b s ih =>
    simp only [cut?] at h
    split at h
    · simp_all
    · obtain ⟨⟨f, r⟩, hr, he⟩ := Option.map_eq_some_iff.1 h
      simp only [Prod.mk.injEq] at he
      have := ih (he.2 ▸ hr)
      simp only [List.length_cons]
      omega

/-- The pieces between occurrences of `separator`; one more than there are occurrences. -/
def splitAt (separator : UInt8) : Bytes → List Bytes
  | [] => [[]]
  | b :: s =>
    if b = separator then [] :: splitAt separator s
    else match splitAt separator s with
      | [] => [[b]]
      | piece :: pieces => (b :: piece) :: pieces

/-- A number from its bytes, the highest first. -/
def toNat (s : Bytes) : Nat := s.foldl (fun n b => 256 * n + b.toNat) 0

/-- The last `size` bytes of a number, the highest first. -/
def ofNat (n : Nat) : (size : Nat) → Bytes
  | 0 => []
  | size + 1 => (n >>> (8 * size)).toUInt8 :: ofNat n size

end Bytes
end CoreLocator
