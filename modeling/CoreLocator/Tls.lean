import CoreLocator.Credentials
import CoreLocator.PrivateKey
import CoreLocator.ServerName
import CoreLocator.Text.Duration
import CoreLocator.X509

/-! A TLS client up to the handshake: what it is set up with, and what is looked at before a server
is connected to. -/
namespace CoreLocator.Tls

/-- Why a client cannot be set up, or does not connect. -/
inductive Fault
  | halfIdentity
  | noCertificate
  | badPem (fault : Pem.Fault)
  | noKey
  | unusableKey
  | badCertificate
  /-- The certificate is about another key. -/
  | keyMismatch
  | badAuthority
  | badServerName
  deriving DecidableEq, Repr

namespace Fault

/-- What is missing is a fault of the caller's, what is there but wrong one of the data. -/
def kind : Fault → Network.Kind
  | halfIdentity => .invalidInput
  | noCertificate => .invalidInput
  | badServerName => .invalidInput
  | _ => .invalidData

def message : Fault → String
  | halfIdentity => "client certificate and key must be given together"
  | noCertificate => "No certificates found in PEM data"
  | badPem fault => fault.message
  | noKey => "no items found"
  | unusableKey => "failed to parse private key as RSA, ECDSA, or EdDSA"
  | badCertificate => "invalid peer certificate: BadEncoding"
  | keyMismatch => "keys may not be consistent: KeyMismatch"
  | badAuthority => "invalid peer certificate: BadEncoding"
  | badServerName => "invalid dns name"

def toNetwork (fault : Fault) : Network.Fault := .reported fault.kind fault.message

end Fault

/-- The certificates of a PEM text, of which there has to be one. -/
def certificates (pem : Bytes) : Except Fault (List Bytes) :=
  match Pem.certificates pem with
  | .error fault => .error (.badPem fault)
  | .ok [] => .error .noCertificate
  | .ok chain => .ok chain

/-- A client's certificate, with those that vouch for it behind, and the key that it is about. -/
structure Identity where
  chain : List Bytes
  key : Pem.Block

/-- The authorities that a client trusts. -/
inductive Trust
  /-- Those that everybody trusts. -/
  | wellKnown
  | only (authorities : List X509.Certificate)
  deriving DecidableEq, Repr

def Trust.ofPem (pem : Bytes) : Except Fault Trust := do
  let authorities ← (← certificates pem).mapM fun der =>
    match X509.Certificate.authorityOfDer? der with
    | none => .error .badAuthority
    | some authority => .ok authority
  return .only authorities

namespace Identity

def ofPem (certificatePem keyPem : Bytes) : Except Fault Identity := do
  let chain ← certificates certificatePem
  match Pem.privateKey? keyPem with
  | .error fault => throw (.badPem fault)
  | .ok none => throw .noKey
  | .ok (some key) => return { chain, key }

/-- The key has to be usable, and the first certificate has to be about it. -/
def check (identity : Identity) : Except Fault Unit := do
  match PrivateKey.ofBlock? identity.key with
  | none => throw .unusableKey
  | some key =>
    match identity.chain.head?.bind X509.Certificate.ofDer? with
    | none => throw .badCertificate
    | some certificate =>
      if key.publicKeyInfo? ≠ some certificate.publicKeyInfo then throw .keyMismatch

end Identity

structure Client where
  trust : Trust
  identity : Option Identity
  timeouts : Timeouts

namespace Client

/-- Certificate and key are read before the authorities, and compared behind them. -/
def ofCredentials (c : Credentials) (timeouts : Timeouts) : Except Fault Client := do
  let identity ← match c.clientCert, c.clientKey with
    | some certificate, some key => some <$> Identity.ofPem certificate key
    | none, none => pure none
    | _, _ => throw .halfIdentity
  let trust ← match c.rootCa with
    | none => pure .wellKnown
    | some pem => Trust.ofPem pem
  if let some identity := identity then identity.check
  return { trust, identity, timeouts }

def inspect (client : Client) : String :=
  Text.record "TlsConnector"
    [("mutual_tls", toString client.identity.isSome),
      ("timeouts", Text.record "Timeouts"
        [("connect", Text.milliseconds client.timeouts.connect.toNat),
          ("io", Text.milliseconds client.timeouts.io.toNat)])]

/-- The authorities for one endpoint: its own, if it has one, in place of the client's. -/
def trustFor (client : Client) (endpoint : Endpoint) : Except Fault Trust :=
  match endpoint.trust with
  | none => .ok client.trust
  | some pem => Trust.ofPem pem

/-- The connection over which the handshake is to be made, with the authorities that the server
has to show a certificate of. Nothing is connected to for an endpoint that is not in order. -/
def connect {m : Type → Type} {κ : Type} [Monad m] [Network m κ] (client : Client)
    (endpoint : Endpoint) : m (Except Network.Fault (κ × Trust)) := do
  match client.trustFor endpoint with
  | .error fault => pure (.error fault.toNetwork)
  | .ok trust =>
    if ServerName.isValid (.ofString endpoint.host) then
      match ← Network.connect endpoint with
      | .error fault => pure (.error fault)
      | .ok connection => pure (.ok (connection, trust))
    else pure (.error Fault.badServerName.toNetwork)

end Client
end CoreLocator.Tls
