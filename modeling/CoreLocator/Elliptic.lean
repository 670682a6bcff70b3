import CoreLocator.Modular

/-! Curves of the short form over a prime field, and the multiples of a point by the chord and
tangent rule. -/
namespace CoreLocator.Elliptic

structure Curve where
  /-- The size of the field. -/
  p : Nat
  /-- The factor of `x`. -/
  a : Nat
  /-- The number of multiples of the base point. -/
  order : Nat
  baseX : Nat
  baseY : Nat
  deriving DecidableEq, Repr

/-- Nothing stands for the point at infinity. -/
abbrev Point := Option (Nat × Nat)

namespace Curve

/-- The third point on the line through `(x, y)` with this slope that meets the curve at `x'`,
reflected. -/
def along (c : Curve) (slope x y x' : Nat) : Nat × Nat :=
  let x'' := Modular.sub c.p (Modular.sub c.p (slope * slope) x) x'
  (x'', Modular.sub c.p (slope * Modular.sub c.p x x'') y)

def add (c : Curve) : Point → Point → Point
  | none, q => q
  | q, none => q
  | some (x, y), some (x', y') =>
    if x = x' then
      if (y + y') % c.p = 0 then none
      else some (c.along ((3 * x * x + c.a) * Modular.inverse c.p (2 * y) % c.p) x y x')
    else
      let slope := Modular.sub c.p y' y * Modular.inverse c.p (Modular.sub c.p x' x) % c.p
      some (c.along slope x y x')

/-- The sum of `k` times `q`. -/
def times (c : Curve) (k : Nat) (q : Point) : Point :=
  if _h : k = 0 then none
  else
    let half := c.times (k / 2) q
    let even := c.add half half
    if k % 2 = 1 then c.add even q else even
termination_by k
decreasing_by omega

def base (c : Curve) : Point := some (c.baseX, c.baseY)

/-- The curve of 256 bits that is known as `prime256v1`. -/
def p256 : Curve where
  p := 0xffffffff00000001000000000000000000000000ffffffffffffffffffffffff
  a := 0xffffffff00000001000000000000000000000000fffffffffffffffffffffffc
  order := 0xffffffff00000000ffffffffffffffffbce6faada7179e84f3b9cac2fc632551
  baseX := 0x6b17d1f2e12c4247f8bce6e563a440f277037d812deb33a0f4a13945d898c296
  baseY := 0x4fe342e2fe1a7f9b8ee7eb4a7c0f9e162bce33576b315ececbb6406837bf51f5

/-- The curve of 384 bits that is known as `secp384r1`. -/
def p384 : Curve where
  p := 0xfffffffffffffffffffffffffffffffffffffffffffffffffffffffffffffffeffffffff0000000000000000ffffffff
  a := 0xfffffffffffffffffffffffffffffffffffffffffffffffffffffffffffffffeffffffff0000000000000000fffffffc
  order := 0xffffffffffffffffffffffffffffffffffffffffffffffffc7634d81f4372ddf581a0db248b0a77aecec196accc52973
  baseX := 0xaa87ca22be8b05378eb1c71ef320ad746e1d3b628ba79b9859f741e082542a385502f25dbf55296c3a545e3872760ab7
  baseY := 0x3617de4a96262c6f5d9e98bf9292dc29f8f41dbd289a147ce9da3113b5f0b8c00a60b1ce1d7e819d7a431d7c90ea0e5f

end Curve
end CoreLocator.Elliptic
