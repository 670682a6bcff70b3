import CoreLocator.Files
import CoreLocator.Settings
import CoreLocator.Text.Quoted

/-! The PEM files that a client authenticates with, as they were read; nothing is known yet of what
is in them. -/
namespace CoreLocator

structure Credentials where
  /-- The authorities to trust; without them, those that everybody trusts. -/
  rootCa : Option Bytes := none
  clientCert : Option Bytes := none
  clientKey : Option Bytes := none
  deriving DecidableEq, Repr

namespace Credentials

/-- The client's own files are not shown. -/
def inspect (c : Credentials) : String :=
  Text.record "TlsCredentials"
    [("root_ca_pem", Text.optional (c.rootCa.map fun pem => toString pem.length)),
      ("client_cert_pem", toString c.clientCert.isSome),
      ("client_key_pem", toString c.clientKey.isSome)]

variable {m : Type → Type} [Monad m] [Files m]

def readOptional : Option String → ExceptT Files.Fault m (Option Bytes)
  | none => pure none
  | some path => do
    let content ← ExceptT.mk (Files.read path)
    pure (some content)

/-- The files that the settings name, up to the first that cannot be read. -/
def ofSettings (s : Settings) : m (Except Files.Fault Credentials) :=
  ExceptT.run do
    let rootCa ← readOptional s.rootCaPath
    let clientCert ← readOptional s.clientCertPath
    let clientKey ← readOptional s.clientKeyPath
    pure { rootCa, clientCert, clientKey }

end Credentials
end CoreLocator
