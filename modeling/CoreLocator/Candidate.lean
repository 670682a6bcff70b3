import CoreLocator.Document
import CoreLocator.Log
import CoreLocator.Network.Link
import CoreLocator.Text.Quoted

/-! The places where a core says that it can be reached, and the choice among them: the first that
accepts a connection, or the one that the caller names. -/
namespace CoreLocator

/-- An entry of the core's connectivity list. -/
structure Candidate where
  index : Nat
  host : String
  /-- Missing if the entry has none or a port that is no port. -/
  port : Option UInt16
  deriving DecidableEq, Repr

structure Selected where
  index : Nat
  host : String
  port : UInt16
  deriving DecidableEq, Repr

inductive Selection
  | automatic
  | manual (index : Nat)
  deriving DecidableEq, Repr

def Selection.inspect : Selection → String
  | automatic => "Automatic"
  | manual index => "Manual(" ++ Text.record "HostParameters" [("interface", toString index)] ++ ")"

namespace Candidate

/-- The port that a text begins with; zero is none. -/
def port? (text : Bytes) : Option UInt16 :=
  let n := Decimal.leading text
  if 0 < n ∧ n < 65536 then some n.toUInt16 else none

def at? (document : Bytes) (index : Nat) : Option Candidate := do
  let host ← Document.search? document (Document.hostPath index)
  let port := (Document.search? document (Document.portPath index)).bind port?
  return { index, host := Utf8.text host, port }

/-- A walk over the entries, up to the first that is missing. -/
structure Enumeration where
  document : Bytes
  /-- The entry to look for; there is none once one was missing. -/
  next : Option Nat := some 0
  deriving DecidableEq, Repr

def Enumeration.advance (walk : Enumeration) : Option Candidate × Enumeration :=
  match walk.next with
  | none => (none, walk)
  | some index =>
    let entry := at? walk.document index
    (entry, { walk with next := entry.map fun _ => index + 1 })

/-- Entries from `index` on, up to the first that is missing, at most `limit` of them. -/
def listFrom (document : Bytes) (index : Nat) : (limit : Nat) → List Candidate
  | 0 => []
  | limit + 1 =>
    match at? document index with
    | none => []
    | some c => c :: listFrom document (index + 1) limit

/-- All entries. There are fewer than the document has bytes. -/
def list (document : Bytes) : List Candidate := listFrom document 0 document.length

def loopback : String := "127.0.0.1"

def isValidAddress (host : String) : Bool := !host.isEmpty && host != loopback

def selected? (c : Candidate) : Option Selected :=
  c.port.map fun port => { index := c.index, host := c.host, port }

end Candidate

namespace Selection

variable {m : Type → Type} {κ : Type} [Monad m] [Network m κ] [Log m]

/-- Takes the first candidate that accepts a connection; `tried` were passed over already. -/
def probe (ca : Bytes) (tried : Nat) : List Candidate → m (Except Failure Selected)
  | [] => do
    Log.warn s!"[select] none of {tried} candidates reachable"
    pure (.error (.noReachableCandidate tried))
  | c :: rest => do
    if Candidate.isValidAddress c.host then
      match c.selected? with
      | none =>
        Log.warn s!"[select] candidate {c.index} ({c.host}) has no usable port"
        probe ca (tried + 1) rest
      | some selected =>
        let endpoint : Endpoint := ⟨selected.host, selected.port, some ca⟩
        match ← Network.connect endpoint with
        | .ok connection =>
          let _ ← (Link.ofConnection connection).close
          Log.info s!"[select] candidate {c.index} reachable at {endpoint.display}"
          pure (.ok selected)
        | .error fault =>
          Log.debug s!"[select] probe {endpoint.display} failed: {fault.message}"
          probe ca (tried + 1) rest
    else
      Log.debug s!"[select] skipping candidate {c.index} ({Text.quoted c.host})"
      probe ca (tried + 1) rest

/-- Chooses among a document's candidates. Probes trust `ca` alone. -/
def choose (selection : Selection) (document ca : Bytes) : m (Except Failure Selected) :=
  match selection with
  | automatic => probe ca 0 (Candidate.list document)
  | manual index => do
    match (Candidate.at? document index).bind Candidate.selected? with
    | none =>
      Log.warn s!"[select] no usable interface {index}"
      pure (.error (.noReachableCandidate 0))
    | some selected =>
      Log.info s!"[select] using interface {index} -> {selected.host}:{selected.port}"
      pure (.ok selected)

end Selection
end CoreLocator
