import CoreLocator.Pem
import CoreLocator.PrivateKey.Edwards
import CoreLocator.PrivateKey.Elliptic
import CoreLocator.PrivateKey.Rsa
import CoreLocator.PrivateKey.Wrapped

/-! Private keys in the form of their algorithm, or in the general form that names it first. -/
namespace CoreLocator

inductive PrivateKey
  | elliptic (key : Elliptic.Key)
  | rsa (key : Rsa.Key)
  | edwards (key : Edwards.Key)
  deriving DecidableEq, Repr

namespace PrivateKey

open Der (Reader)
open Der.Reader

/-- The public key with its algorithm, as a certificate has it. -/
def publicKeyInfo? : PrivateKey → Option Bytes
  | elliptic key => key.publicKey?.map (info key.curve.algorithm)
  | rsa key => some (info Rsa.Key.algorithm key.publicKey)
  | edwards key => some (info Edwards.Key.algorithm key.publicKey)
where
  info (algorithm publicKey : Bytes) : Bytes :=
    Der.encode Der.Tag.sequence algorithm ++ Der.encode Der.Tag.bitString (0 :: publicKey)

def ellipticOf? (c : Elliptic.NamedCurve) (content : Bytes) : Option PrivateKey :=
  ((Elliptic.Key.reader c).whole? content).map elliptic

def rsaOf? (content : Bytes) : Option PrivateKey := (Rsa.Key.reader.whole? content).map rsa

/-- A public key that is attached has to be the one that follows. -/
def edwardsOf? (content : Bytes) (attached : Option Bytes) : Option PrivateKey := do
  let key ← Edwards.Key.reader.whole? content
  if attached.all (· == key.publicKey) then some (edwards key) else none

/-- Only for the Edwards curve there is more than the first version of the general form. -/
def ofWrapped? (w : Wrapped) : Option PrivateKey :=
  if w.algorithm = Edwards.Key.algorithm then edwardsOf? w.content w.publicKey
  else if w.publicKey.isSome then none
  else if w.algorithm = Rsa.Key.algorithm then rsaOf? w.content
  else
    match Elliptic.NamedCurve.all.find? (·.algorithm = w.algorithm) with
    | none => none
    | some c => ellipticOf? c w.content

def ofBlock? (block : Pem.Block) : Option PrivateKey :=
  match block.kind with
  | .privateKey => (Wrapped.reader.whole? block.content).bind ofWrapped?
  | .rsaPrivateKey => rsaOf? block.content
  | .ecPrivateKey => Elliptic.NamedCurve.all.findSome? fun c => ellipticOf? c block.content
  | _ => none

end PrivateKey
end CoreLocator
