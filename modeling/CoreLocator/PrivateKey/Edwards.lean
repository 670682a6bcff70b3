import CoreLocator.Der
import CoreLocator.Edwards
import CoreLocator.Sha512

/-! Private keys for signatures with the Edwards curve: 32 bytes, from whose digest everything else
follows. -/
namespace CoreLocator.Edwards

open Der (Reader)
open Der.Reader

structure Key where
  seed : Bytes
  deriving DecidableEq, Repr

namespace Key

def seedSize : Nat := 32

/-- The multiple of the base point that is public: the first half of the digest, the lowest byte
first, with its three lowest bits and its highest one cleared and the one below that set. -/
def scalar (k : Key) : Nat :=
  let n := Bytes.toNat ((Sha512.digest k.seed).take 32).reverse
  8 * (n % (1 <<< 254) / 8) + 1 <<< 254

def publicKey (k : Key) : Bytes := (Point.base.times k.scalar).encode

def reader : Reader Key := do
  let seed ← expect Der.Tag.octetString
  if seed.length ≠ seedSize then failure
  return { seed }

/-- The name of the algorithm, which has no parameters. -/
def algorithm : Bytes := Der.encode Der.Tag.objectId [0x2B, 0x65, 0x70]

end Key
end CoreLocator.Edwards
