import CoreLocator.Bytes

/-! The distinguished encoding: elements of tag, length and content, the length always in its
shortest form. Tags of more than one byte, and contents of more than 65535 bytes, are not taken. -/
namespace CoreLocator.Der

structure Element where
  tag : UInt8
  content : Bytes
  deriving DecidableEq, Repr

namespace Tag

def boolean : UInt8 := 0x01
def integer : UInt8 := 0x02
def bitString : UInt8 := 0x03
def octetString : UInt8 := 0x04
def null : UInt8 := 0x05
def objectId : UInt8 := 0x06
def sequence : UInt8 := 0x30

/-- A part that is marked with its number in the whole. -/
def numbered (n : UInt8) : UInt8 := 0xA0 + n

/-- A part that has its number in place of the tag that it would have on its own. -/
def implicit (n : UInt8) : UInt8 := 0x80 + n

/-- Says that the tag goes on in the next byte. -/
def isLong (tag : UInt8) : Bool := tag &&& 0x1F == 0x1F

end Tag

def length? : Bytes → Option (Nat × Bytes)
  | [] => none
  | n :: s =>
    if n < 0x80 then some (n.toNat, s)
    else match n, s with
      | 0x81, a :: s => if 0x80 ≤ a.toNat then some (a.toNat, s) else none
      | 0x82, a :: b :: s =>
        let length := 256 * a.toNat + b.toNat
        if 0x100 ≤ length then some (length, s) else none
      | _, _ => none

/-- The element at the start, and what follows it. -/
def element? : Bytes → Option (Element × Bytes)
  | [] => none
  | tag :: s =>
    if Tag.isLong tag then none
    else do
      let (length, s) ← length? s
      if length ≤ s.length then some (⟨tag, s.take length⟩, s.drop length) else none

theorem length_of_length? {s rest : Bytes} {n : Nat} (h : length? s = some (n, rest)) :
    rest.length < s.length := by
  cases s with
  | nil => simp [length?] at h
  | cons a s =>
    simp only [length?] at h
    split at h
    · simp only [Option.some.injEq, Prod.mk.injEq] at h
      simp only [← h.2, List.length_cons]
      omega
    · split at h
      · split at h
        · simp only [Option.some.injEq, Prod.mk.injEq] at h
          simp only [← h.2, List.length_cons]
          omega
        · exact absurd h (by simp)
      · split at h
        · simp only [Option.some.injEq, Prod.mk.injEq] at h
          simp only [← h.2, List.length_cons]
          omega
        · exact absurd h (by simp)
      · exact absurd h (by simp)

theorem length_of_element? {s rest : Bytes} {e : Element} (h : element? s = some (e, rest)) :
    rest.length < s.length := by
  cases s with
  | nil => simp [element?] at h
  | cons tag s =>
    simp only [element?] at h
    split at h
    · exact absurd h (by simp)
    · simp only [Option.bind_eq_bind, Option.bind_eq_some_iff, Prod.exists] at h
      obtain ⟨n, s', hs, h⟩ := h
      have := length_of_length? hs
      split at h
      · simp only [Option.some.injEq, Prod.mk.injEq] at h
        simp only [← h.2, List.length_drop, List.length_cons]
        omega
      · exact absurd h (by simp)

/-- The elements one after the other, with nothing else between or behind. -/
def elements? (s : Bytes) : Option (List Element) :=
  if s = [] then some []
  else match _h : element? s with
    | none => none
    | some (e, rest) => (elements? rest).map (e :: ·)
termination_by s.length
decreasing_by exact length_of_element? _h

/-- Takes what it reads from the front. -/
abbrev Reader := StateT Bytes Option

namespace Reader

def element : Reader Element := element?

/-- The content of an element with this tag. -/
def expect (tag : UInt8) : Reader Bytes := do
  let e ← element
  if e.tag = tag then return e.content else failure

def finished : Reader Bool := do return (← get).isEmpty

/-- Whether an element with this tag comes next. -/
def sees (tag : UInt8) : Reader Bool := do return (← get).head? == some tag

/-- Reads all of `s`. -/
def whole? {α : Type} (r : Reader α) (s : Bytes) : Option α :=
  match r s with
  | some (a, []) => some a
  | _ => none

/-- Reads all of an element's content. -/
def within {α : Type} (tag : UInt8) (r : Reader α) : Reader α := do
  match r.whole? (← expect tag) with
  | none => failure
  | some a => return a

/-- A number that is not negative, in its shortest form. -/
def natural : Reader Nat := do
  match ← expect Tag.integer with
  | [] => failure
  | [b] => if b < 0x80 then return b.toNat else failure
  | 0 :: b :: rest => if 0x80 ≤ b then return Bytes.toNat (b :: rest) else failure
  | b :: rest => if b < 0x80 then return Bytes.toNat (b :: rest) else failure

/-- Bits that fill their bytes. -/
def bitsTagged (tag : UInt8) : Reader Bytes := do
  match ← expect tag with
  | 0 :: content => return content
  | _ => failure

def bits : Reader Bytes := bitsTagged Tag.bitString

end Reader

def lengthBytes (n : Nat) : Bytes :=
  if n < 0x80 then [n.toUInt8]
  else if n < 0x100 then [0x81, n.toUInt8]
  else [0x82, (n / 256).toUInt8, n.toUInt8]

/-- An element's bytes. -/
def encode (tag : UInt8) (content : Bytes) : Bytes := tag :: lengthBytes content.length ++ content

/-- The bytes of a number, the highest first and none of them superfluous. -/
def digits (n : Nat) : Bytes := if n = 0 then [0] else Bytes.ofNat n (n.log2 / 8 + 1)

/-- A number's element. A zero in front keeps a high bit from being taken for a sign. -/
def encodeNatural (n : Nat) : Bytes :=
  match digits n with
  | [] => encode Tag.integer []
  | b :: rest => encode Tag.integer (if b < 0x80 then b :: rest else 0 :: b :: rest)

end CoreLocator.Der
