import CoreLocator.Der

/-! Certificates, as far as they are looked at before one is used: their form, and the public key
that they are about. Signatures, dates and names are not judged here. -/
namespace CoreLocator.X509

open Der (Reader)
open Der.Reader

/-- What is signed and how, with a signature behind. -/
structure Signed where
  body : Bytes
  algorithm : Bytes

/-- Certificates' contents are shorter than this. -/
def sizeLimit : Nat := 0xFFFF

def signed : Reader Signed :=
  within Der.Tag.sequence do
    if sizeLimit ≤ (← get).length then failure
    let body ← expect Der.Tag.sequence
    let algorithm ← expect Der.Tag.sequence
    let _signature ← bits
    return { body, algorithm }

structure Extension where
  id : Bytes
  critical : Bool
  value : Bytes
  deriving DecidableEq, Repr

/-- Extensions are not critical unless they say so. -/
def criticality : Reader Bool := do
  if ← sees Der.Tag.boolean then
    match ← expect Der.Tag.boolean with
    | [0xFF] => return true
    | [0x00] => return false
    | _ => failure
  else return false

def extension : Reader Extension := do
  let id ← expect Der.Tag.objectId
  let critical ← criticality
  let value ← expect Der.Tag.octetString
  return { id, critical, value }

namespace Extension

/-- An extension of the standard's own, by its number there. -/
def standardId (number : UInt8) : Bytes := [0x55, 0x1D, number]

def keyUsage : Bytes := standardId 15
def subjectAltName : Bytes := standardId 17
def basicConstraints : Bytes := standardId 19
def nameConstraints : Bytes := standardId 30
def revocationPoints : Bytes := standardId 31
def extendedKeyUsage : Bytes := standardId 37

/-- Extensions that are understood; each may be there once. -/
def understood : List Bytes :=
  [keyUsage, subjectAltName, basicConstraints, nameConstraints, revocationPoints, extendedKeyUsage]

def isUnderstood (e : Extension) : Bool := understood.contains e.id

/-- An extension that is understood holds one sequence, the key usage excepted. -/
def isAcceptable (e : Extension) : Bool :=
  !e.isUnderstood || e.id == keyUsage || ((expect Der.Tag.sequence).whole? e.value).isSome

end Extension

structure Certificate where
  /-- The public key with its algorithm: the content of a sequence. -/
  publicKeyInfo : Bytes
  extensions : List Extension
  deriving DecidableEq, Repr

/-- Whether every critical extension is understood. -/
def Certificate.isUnderstood (c : Certificate) : Bool :=
  c.extensions.all fun e => !e.critical || e.isUnderstood

def acceptsAll (extensions : List Extension) : Bool :=
  extensions.all (·.isAcceptable)
    && decide ((extensions.filter (·.isUnderstood)).map (·.id)).Nodup

/-- The extensions, if all of them can be accepted. There may be none in the list. -/
def extensions? (s : Bytes) : Option (List Extension) := do
  let elements ← Der.elements? s
  let extensions ← elements.mapM fun e =>
    if e.tag = Der.Tag.sequence then extension.whole? e.content else none
  if acceptsAll extensions then some extensions else none

/-- The number of the third version, the only one that has extensions. -/
def thirdVersion : Bytes := Der.encode Der.Tag.integer [2]

/-- The body of a certificate of the third version, which names the algorithm of its signature
once more. -/
def body (algorithm : Bytes) : Reader Certificate := do
  let version ← expect (Der.Tag.numbered 0)
  if version ≠ thirdVersion then failure
  let _serial ← expect Der.Tag.integer
  let signature ← expect Der.Tag.sequence
  if signature ≠ algorithm then failure
  let _issuer ← expect Der.Tag.sequence
  let _validity ← expect Der.Tag.sequence
  let _subject ← expect Der.Tag.sequence
  let publicKeyInfo ← expect Der.Tag.sequence
  if ← finished then return { publicKeyInfo, extensions := [] }
  let list ← within (Der.Tag.numbered 3) (expect Der.Tag.sequence)
  match extensions? list with
  | none => failure
  | some extensions => return { publicKeyInfo, extensions }

/-- The body of a certificate of the first version. -/
def firstBody : Reader Certificate := do
  let _serial ← expect Der.Tag.integer
  let _signature ← expect Der.Tag.sequence
  let _issuer ← expect Der.Tag.sequence
  let _validity ← expect Der.Tag.sequence
  let _subject ← expect Der.Tag.sequence
  let publicKeyInfo ← expect Der.Tag.sequence
  return { publicKeyInfo, extensions := [] }

namespace Certificate

def ofDer? (der : Bytes) : Option Certificate := do
  let s ← signed.whole? der
  let certificate ← (body s.algorithm).whole? s.body
  if certificate.isUnderstood then some certificate else none

/-- A certificate to trust may be of the first version, and its critical extensions need not be
understood. -/
def authorityOfDer? (der : Bytes) : Option Certificate := do
  let s ← signed.whole? der
  ((body s.algorithm).whole? s.body).or (firstBody.whole? s.body)

end Certificate
end CoreLocator.X509
