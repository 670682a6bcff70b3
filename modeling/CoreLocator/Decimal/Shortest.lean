/-! The shortest decimal text of a binary floating point number: the fewest digits that read back as
the same number, and of those the nearest to it. All comparisons are exact, in whole numbers. -/
namespace CoreLocator.Decimal.Shortest

def tenTo (n : Nat) : Nat := Nat.pow 10 n

/-- The positive number `numerator / denominator`. Every number from `low / (4 * denominator)` to
`high / (4 * denominator)` rounds to it; the two ends do so if `closed`. -/
structure Rounding where
  numerator : Nat
  denominator : Nat
  low : Nat
  high : Nat
  closed : Bool

/-- The number with significand `m` and binary exponent `q`. Below a power of two the neighbours are
twice as dense. -/
def Rounding.ofParts (m : Nat) (q : Int) (power : Bool) : Rounding :=
  let up := 1 <<< q.toNat
  { numerator := m * up
    denominator := 1 <<< (-q).toNat
    low := (4 * m - (if power then 1 else 2)) * up
    high := (4 * m + 2) * up
    closed := m % 2 == 0 }

def Rounding.magnitude (r : Rounding) : Int :=
  if r.denominator ≤ r.numerator then
    (Nat.toDigits 10 (r.numerator / r.denominator)).length - 1
  else
    match (List.range 400).find? fun j => r.denominator ≤ r.numerator * tenTo j with
    | some j => -j
    | none => -400

def Rounding.holds (r : Rounding) (digits : Nat) (exponent : Int) : Bool :=
  let value := digits * tenTo exponent.toNat * r.denominator * 4
  let scale := tenTo (-exponent).toNat
  if r.closed then r.low * scale ≤ value && value ≤ r.high * scale
  else r.low * scale < value && value < r.high * scale

/-- The number with `count` digits that stands for `r`, if there is one: of the two grid points
around `r`, the nearer, and of two equally near the even one. -/
def Rounding.withDigits? (r : Rounding) (count : Nat) : Option (Nat × Int) :=
  let exponent := r.magnitude - count + 1
  let unit := r.denominator * tenTo exponent.toNat
  let scaled := r.numerator * tenTo (-exponent).toNat
  let below := scaled / unit
  let rest := 2 * (scaled % unit)
  let upper := unit < rest || (rest == unit && below % 2 == 1)
  let first := if upper then below + 1 else below
  let second := if upper then below else below + 1
  if r.holds first exponent then some (first, exponent)
  else if r.holds second exponent then some (second, exponent)
  else none

/-- Seventeen digits always tell a double from its neighbours. -/
def Rounding.shortest (r : Rounding) : Nat × Int :=
  ((List.range 17).findSome? fun n => r.withDigits? (n + 1)).getD (0, 0)

/-- Numbers with an exponent from -5 to 15 are written positionally, always with a point; others with
the exponent behind, which always has a sign. -/
def layout (digits : List Char) (magnitude : Int) : List Char :=
  if magnitude < -5 || 15 < magnitude then
    let size := Nat.toDigits 10 magnitude.natAbs
    let mark := if magnitude < 0 then '-' else '+'
    match digits with
    | [] => []
    | [d] => d :: 'e' :: mark :: size
    | d :: more => d :: '.' :: more ++ 'e' :: mark :: size
  else if magnitude < 0 then
    '0' :: '.' :: List.replicate (magnitude.natAbs - 1) '0' ++ digits
  else
    let whole := magnitude.toNat + 1
    let fraction := if digits.length ≤ whole then ['0'] else digits.drop whole
    (digits ++ List.replicate (whole - digits.length) '0').take whole ++ '.' :: fraction

def stripZeros (digits : List Char) : List Char := (digits.reverse.dropWhile (· == '0')).reverse

/-- One more than the largest fraction that is stored. -/
def hiddenBit : Nat := 0x10000000000000

def render (bits : UInt64) : String :=
  let n := bits.toNat
  let field := n / hiddenBit % 2048
  let fraction := n % hiddenBit
  let sign := if 2048 ≤ n / hiddenBit then ['-'] else []
  if field == 0 && fraction == 0 then String.ofList (sign ++ ['0', '.', '0'])
  else
    let m := if field == 0 then fraction else fraction + hiddenBit
    let q : Int := ((if field == 0 then 1 else field) : Nat) - 1075
    let r := Rounding.ofParts m q (fraction == 0 && 1 < field)
    let (value, exponent) := r.shortest
    let digits := Nat.toDigits 10 value
    String.ofList (sign ++ layout (stripZeros digits) (exponent + digits.length - 1))

end CoreLocator.Decimal.Shortest
