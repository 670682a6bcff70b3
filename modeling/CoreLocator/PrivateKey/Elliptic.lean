import CoreLocator.Der
import CoreLocator.Elliptic

/-! Private keys on elliptic curves. A key comes with its public key, and is refused unless the two
belong together. -/
namespace CoreLocator.Elliptic

open Der (Reader)
open Der.Reader

/-- A curve with the name that it has in keys, and the number of bytes of its numbers. -/
structure NamedCurve where
  curve : Curve
  size : Nat
  id : Bytes
  deriving DecidableEq, Repr

namespace NamedCurve

def p256 : NamedCurve :=
  ⟨.p256, 32, Der.encode Der.Tag.objectId [0x2A, 0x86, 0x48, 0xCE, 0x3D, 0x03, 0x01, 0x07]⟩

def p384 : NamedCurve :=
  ⟨.p384, 48, Der.encode Der.Tag.objectId [0x2B, 0x81, 0x04, 0x00, 0x22]⟩

def all : List NamedCurve := [p256, p384]

/-- The name that keys on any curve have, with the curve's own behind. -/
def algorithm (c : NamedCurve) : Bytes :=
  Der.encode Der.Tag.objectId [0x2A, 0x86, 0x48, 0xCE, 0x3D, 0x02, 0x01] ++ c.id

end NamedCurve

structure Key where
  curve : NamedCurve
  scalar : Nat
  deriving DecidableEq, Repr

namespace Key

/-- The public key with both of its coordinates. There is none for a multiple of the order. -/
def publicKey? (key : Key) : Option Bytes :=
  (key.curve.curve.times key.scalar key.curve.curve.base).map fun (x, y) =>
    0x04 :: (Bytes.ofNat x key.curve.size ++ Bytes.ofNat y key.curve.size)

def reader (c : NamedCurve) : Reader Key :=
  within Der.Tag.sequence do
    if (← natural) ≠ 1 then failure
    let scalar ← expect Der.Tag.octetString
    if scalar.length ≠ c.size then failure
    let key : Key := ⟨c, Bytes.toNat scalar⟩
    if key.scalar = 0 ∨ c.curve.order ≤ key.scalar then failure
    if ← sees (Der.Tag.numbered 0) then
      if (← expect (Der.Tag.numbered 0)) ≠ c.id then failure
    let publicKey ← within (Der.Tag.numbered 1) bits
    if key.publicKey? ≠ some publicKey then failure
    return key

end Key
end CoreLocator.Elliptic
