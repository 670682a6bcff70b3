import CoreLocator.Der

/-! The general form of a private key, which names the algorithm in front of the key in the
algorithm's own form. -/
namespace CoreLocator.PrivateKey

open Der (Reader)
open Der.Reader

structure Wrapped where
  algorithm : Bytes
  content : Bytes
  /-- The second version of the form has the public key too. -/
  publicKey : Option Bytes
  deriving DecidableEq, Repr

namespace Wrapped

/-- The public key is a string of bits that has its number for a tag, or one within an element that
has it. -/
def attachedKey : Reader Bytes := do
  if ← sees (Der.Tag.numbered 1) then within (Der.Tag.numbered 1) bits
  else bitsTagged (Der.Tag.implicit 1)

/-- Attributes are passed over. -/
def reader : Reader Wrapped :=
  within Der.Tag.sequence do
    let version ← natural
    let algorithm ← expect Der.Tag.sequence
    let content ← expect Der.Tag.octetString
    if ← sees (Der.Tag.numbered 0) then
      let _attributes ← expect (Der.Tag.numbered 0)
    match version with
    | 0 => return { algorithm, content, publicKey := none }
    | 1 => return { algorithm, content, publicKey := some (← attachedKey) }
    | _ => failure

end Wrapped
end CoreLocator.PrivateKey
