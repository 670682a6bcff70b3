import CoreLocator.Der

/-! RSA private keys with all the numbers that speed up their use. The modulus and the coefficient
have to agree with the primes, which are taken for primes. The exponents only have to be of a likely
size. -/
namespace CoreLocator.Rsa

open Der (Reader)
open Der.Reader

structure Key where
  modulus : Nat
  publicExponent : Nat
  privateExponent : Nat
  prime1 : Nat
  prime2 : Nat
  /-- The private exponent for the first prime alone. -/
  exponent1 : Nat
  exponent2 : Nat
  /-- The inverse of the second prime for the first. -/
  coefficient : Nat
  deriving DecidableEq, Repr

/-- How many binary digits a number has. -/
def width (n : Nat) : Nat := if n = 0 then 0 else n.log2 + 1

namespace Key

/-- Keys of 2048 to 4096 bits, with a public exponent that is neither small nor large. The lower
limit is one of whole bytes. -/
def isPublicPartAcceptable (k : Key) : Bool :=
  decide (2048 - 8 < width k.modulus ∧ width k.modulus ≤ 4096) && k.modulus % 2 == 1
    && decide (65537 ≤ k.publicExponent ∧ width k.publicExponent ≤ 33)
    && k.publicExponent % 2 == 1

/-- One of two primes of half the modulus' width. -/
def isPrimeAcceptable (k : Key) (prime exponent : Nat) : Bool :=
  width prime == (width k.modulus + 1) / 2 && width prime % 512 == 0 && prime % 2 == 1
    && decide (exponent < prime) && exponent % 2 == 1

def isExponentAcceptable (k : Key) : Bool :=
  decide ((width k.modulus + 1) / 2 < width k.privateExponent)
    && decide (k.privateExponent < k.modulus) && k.privateExponent % 2 == 1

def isCoefficientAcceptable (k : Key) : Bool :=
  decide (k.coefficient < k.prime1) && k.prime2 * k.coefficient % k.prime1 == 1

/-- The modulus divides the product of the primes. -/
def isProductAcceptable (k : Key) : Bool := k.prime1 * k.prime2 % k.modulus == 0

def isAcceptable (k : Key) : Bool :=
  k.isPublicPartAcceptable && k.isPrimeAcceptable k.prime1 k.exponent1
    && k.isPrimeAcceptable k.prime2 k.exponent2 && k.isProductAcceptable
    && k.isExponentAcceptable && k.isCoefficientAcceptable

/-- The numbers in the order of their names, behind a version. -/
def reader : Reader Key :=
  within Der.Tag.sequence do
    if (← natural) ≠ 0 then failure
    let key : Key := ⟨← natural, ← natural, ← natural, ← natural, ← natural, ← natural, ← natural,
      ← natural⟩
    if key.isAcceptable then return key else failure

/-- The name of the algorithm, which has no parameters. -/
def algorithm : Bytes :=
  Der.encode Der.Tag.objectId [0x2A, 0x86, 0x48, 0x86, 0xF7, 0x0D, 0x01, 0x01, 0x01]
    ++ Der.encode Der.Tag.null []

def publicKey (k : Key) : Bytes :=
  Der.encode Der.Tag.sequence (Der.encodeNatural k.modulus ++ Der.encodeNatural k.publicExponent)

end Key
end CoreLocator.Rsa
