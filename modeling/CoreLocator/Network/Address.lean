import CoreLocator.Decimal

/-! Addresses of versions 4 and 6, and their texts, which are read more freely than written. -/
namespace CoreLocator.Network

inductive Address
  | version4 (bytes : Vector UInt8 4)
  | version6 (groups : Vector UInt16 8)
  deriving DecidableEq, Repr

namespace Address

def ofLength? {α : Type} (n : Nat) (items : List α) : Option (Vector α n) :=
  if h : items.length = n then some ⟨items.toArray, by simpa using h⟩ else none

/-- A number without zeros in front that fits a byte. -/
def byte? (s : Bytes) : Option UInt8 :=
  if !s.isEmpty && s.all Ascii.isDigit && (s.head? != some 0x30 || s.length == 1) then
    (Decimal.below? UInt8.size s).map Nat.toUInt8
  else none

/-- Four numbers with dots between. -/
def bytes? (s : Bytes) : Option (Vector UInt8 4) :=
  ((Bytes.splitAt 0x2E s).mapM byte?).bind (ofLength? 4)

def group? (s : Bytes) : Option UInt16 :=
  if s.isEmpty || decide (4 < s.length) then none
  else (s.mapM Ascii.hexDigit?).map fun digits =>
    (digits.foldl (fun n digit => 16 * n + digit) 0).toUInt16

/-- Groups with colons between; the last two may be written as an address of version 4, if `mixed`
allows it. -/
def groups? (mixed : Bool) (s : Bytes) : Option (List UInt16) :=
  if s.isEmpty then some []
  else
    let parts := Bytes.splitAt 0x3A s
    match parts.mapM group? with
    | some groups => some groups
    | none =>
      if mixed then do
        let front ← parts.dropLast.mapM group?
        let last ← bytes? (parts.getLast?.getD [])
        let n := Bytes.toNat last.toList
        return front ++ [(n >>> 16).toUInt16, n.toUInt16]
      else none

/-- What stands before the first two colons in a row and what behind them. -/
def cutAtGap? : Bytes → Option (Bytes × Bytes)
  | [] => none
  | b :: s =>
    match Bytes.after? [0x3A, 0x3A] (b :: s) with
    | some rest => some ([], rest)
    | none => (cutAtGap? s).map fun (front, rest) => (b :: front, rest)

/-- Eight groups, of which any number of zeros in a row may be left out once. -/
def allGroups? (s : Bytes) : Option (Vector UInt16 8) := do
  match cutAtGap? s with
  | none => ofLength? 8 (← groups? true s)
  | some (front, rest) =>
    let before ← groups? false front
    let behind ← groups? true rest
    let missing := 8 - (before.length + behind.length)
    if missing = 0 then none
    else ofLength? 8 (before ++ List.replicate missing 0 ++ behind)

def ofBytes? (s : Bytes) : Option Address :=
  match bytes? s with
  | some bytes => some (.version4 bytes)
  | none => (allGroups? s).map .version6

def dotted (bytes : Vector UInt8 4) : String :=
  String.intercalate "." (bytes.toList.map fun b => toString b.toNat)

def colons (groups : List UInt16) : String :=
  String.intercalate ":" (groups.map fun g => String.ofList (Nat.toDigits 16 g.toNat))

/-- The bytes of an address of version 4 among those of version 6. -/
def embedded? (groups : Vector UInt16 8) : Option (Vector UInt8 4) :=
  if groups.toList.take 6 = [0, 0, 0, 0, 0, 0xFFFF] then
    some #v[(groups[6] >>> 8).toUInt8, groups[6].toUInt8,
      (groups[7] >>> 8).toUInt8, groups[7].toUInt8]
  else none

/-- Where the first of the longest runs of zeros starts, and how long it is. -/
def longestZeros (groups : List UInt16) : Nat × Nat :=
  (List.range groups.length).foldl (fun best start =>
    let length := ((groups.drop start).takeWhile (· == 0)).length
    if best.2 < length then (start, length) else best) (0, 0)

/-- A single zero group is not worth leaving out. -/
def text : Address → String
  | version4 bytes => dotted bytes
  | version6 groups =>
    match embedded? groups with
    | some bytes => "::ffff:" ++ dotted bytes
    | none =>
      let (start, length) := longestZeros groups.toList
      if length < 2 then colons groups.toList
      else colons (groups.toList.take start) ++ "::"
        ++ colons (groups.toList.drop (start + length))

/-- Brackets keep the colons of an address apart from the port's. -/
def textWithPort (address : Address) (port : UInt16) : String :=
  match address with
  | version4 _ => s!"{address.text}:{port}"
  | version6 _ => s!"[{address.text}]:{port}"

end Address
end CoreLocator.Network
