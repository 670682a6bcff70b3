import CoreLocator.Bytes
import CoreLocator.Modular

/-! The curve `y² - x² = 1 + d x² y²` over the field of `2²⁵⁵ - 19` elements. One rule adds any two
of its points. -/
namespace CoreLocator.Edwards

def p : Nat := 0x7fffffffffffffffffffffffffffffffffffffffffffffffffffffffffffffed

/-- The curve's own constant. -/
def d : Nat := 0x52036cee2b6ffe738cc740797779e89800700a4d4141d8ab75eb4dca135978a3

structure Point where
  x : Nat
  y : Nat
  deriving DecidableEq, Repr

namespace Point

def zero : Point := ⟨0, 1⟩

/-- The point whose multiples are the public keys. -/
def base : Point where
  x := 0x216936d3cd6e53fec0a4e231fdd6dc5c692cc7609525a7b2c9562d608f25d51a
  y := 0x6666666666666666666666666666666666666666666666666666666666666658

/-- Neither of the two divisors is ever zero. -/
def add (a b : Point) : Point :=
  let product := d * (a.x * b.x % p) * (a.y * b.y % p) % p
  { x := (a.x * b.y + b.x * a.y) * Modular.inverse p (1 + product) % p
    y := (a.y * b.y + a.x * b.x) * Modular.inverse p (Modular.sub p 1 product) % p }

def times (k : Nat) (a : Point) : Point :=
  if _h : k = 0 then zero
  else
    let half := times (k / 2) a
    let even := half.add half
    if k % 2 = 1 then even.add a else even
termination_by k
decreasing_by omega

/-- The 32 bytes of `y`, the lowest first. The bit that is left at their end tells the two points
with this `y` apart. -/
def encode (a : Point) : Bytes := (Bytes.ofNat (a.y + (a.x % 2) <<< 255) 32).reverse

end Point
end CoreLocator.Edwards
