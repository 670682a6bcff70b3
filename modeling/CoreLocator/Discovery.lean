import CoreLocator.Candidate
import CoreLocator.Certificate
import CoreLocator.Request
import CoreLocator.Response.Body

/-! One discovery: ask the service for the thing's document, read it into the buffer that carried
the request, take the group's certificate from it and choose an address of the core. Connections
are closed on every way out. -/
namespace CoreLocator

/-- Where a core is reached, and what else the document says of it. -/
structure CoreAddress where
  host : String
  port : UInt16
  /-- The group's authority, as PEM. -/
  certificate : Option Bytes
  groupId : Option String
  coreArn : Option String
  deriving DecidableEq, Repr

namespace CoreAddress

def certificatePem (core : CoreAddress) : Option String := core.certificate.bind Utf8.text?

/-- The core as a place to connect to, trusting its own authority. -/
def endpoint (core : CoreAddress) : Endpoint := ⟨core.host, core.port, core.certificate⟩

/-- Of the certificate only the length is shown. -/
def inspect (core : CoreAddress) : String :=
  Text.record "HostAddressData"
    [("host", Text.quoted core.host), ("port", toString core.port),
      ("certificate", Text.optional (core.certificate.map fun c => toString c.length)),
      ("group_id", Text.optional (core.groupId.map Text.quoted)),
      ("core_thing_arn", Text.optional (core.coreArn.map Text.quoted))]

end CoreAddress

def Endpoint.inspect (e : Endpoint) : String :=
  Text.record "Endpoint"
    [("host", Text.quoted e.host), ("port", toString e.port),
      ("trust", Text.optional (e.trust.map fun t => toString t.length))]

def Link.inspect {κ : Type} (link : Link κ) : String :=
  Text.record "Link" [("open", toString link.isOpen)]

/-- What a caller asks for. -/
structure DiscoveryRequest where
  host : String
  port : UInt16
  thingName : String
  selection : Selection := .automatic
  deriving DecidableEq, Repr

def DiscoveryRequest.endpoint (r : DiscoveryRequest) : Endpoint := { host := r.host, port := r.port }

namespace Discovery

variable {m : Type → Type} {κ : Type} [Monad m] [Network m κ] [Log m]

/-- Connects and sends the request, which goes through the buffer. A request that is refused opens
nothing. -/
def start (endpoint : Endpoint) (thingName : String) (buffer : Bytes) :
    m (Except Failure (Link κ) × Bytes) := do
  match Request.write buffer thingName with
  | (.error failure, buffer) => pure (.error failure, buffer)
  | (.ok length, buffer) =>
    match ← Network.connect endpoint with
    | .error fault =>
      Log.warn s!"[session] connect to {endpoint.display} failed: {fault.message}"
      pure (.error (.transport fault), buffer)
    | .ok connection =>
      let link := Link.ofConnection connection
      match ← link.sendAll (buffer.take length) with
      | .error fault =>
        let _ ← link.close
        pure (.error (.transport fault), buffer)
      | .ok () =>
        Log.debug s!"[session] sent {length} byte request to {endpoint.display}"
        pure (.ok link, buffer)

/-- What a document says of the core. -/
def interpret (document : Bytes) (selection : Selection) : m (Except Failure CoreAddress) := do
  match Document.validate document with
  | .error defect => pure (.error (.documentInvalid defect))
  | .ok () =>
    match Document.require document Document.certificatePath with
    | .error failure => pure (.error failure)
    | .ok raw =>
      match Certificate.decode raw with
      | .error defect => pure (.error (.documentInvalid defect))
      | .ok certificate =>
        match ← selection.choose document certificate with
        | .error failure => pure (.error failure)
        | .ok selected =>
          pure (.ok {
            host := selected.host
            port := selected.port
            certificate := some certificate
            groupId := (Document.search? document Document.groupIdPath).map Utf8.text
            coreArn := (Document.search? document Document.coreArnPath).map Utf8.text })

/-- A whole discovery, with the buffer as it is left. -/
def run (request : DiscoveryRequest) (buffer : Bytes) : m (Except Failure CoreAddress × Bytes) := do
  let endpoint := request.endpoint
  match ← start endpoint request.thingName buffer with
  | (.error failure, buffer) => pure (.error failure, buffer)
  | (.ok link, buffer) =>
    match ← Response.readHead link with
    | (.error failure, _) => pure (.error failure, buffer)
    | (.ok head, link) =>
      match ← Response.receiveDocument link buffer head with
      | (.error failure, reception) => pure (.error failure, reception.buffer)
      | (.ok length, reception) =>
        let _ ← reception.link.close
        Log.debug s!"[session] received {length} byte document from {endpoint.display}"
        match ← interpret (reception.buffer.take length) request.selection with
        | .error failure => pure (.error failure, reception.buffer)
        | .ok core =>
          Log.info s!"[session] {request.thingName} -> core {core.host}:{core.port}"
          pure (.ok core, reception.buffer)

end Discovery

/-- A buffer that serves one discovery after the other. -/
structure Session where
  buffer : Bytes
  deriving DecidableEq, Repr

namespace Session

variable {m : Type → Type} {κ : Type} [Monad m] [Network m κ] [Log m]

def blank (capacity : Nat) : Bytes := List.replicate capacity 0

def ofCapacity (capacity : Nat) : Session := ⟨blank capacity⟩

def capacity (s : Session) : Nat := s.buffer.length

/-- Runs on a buffer of zeros, whatever the discovery before has left in it. -/
def discover (s : Session) (request : DiscoveryRequest) :
    m (Except Failure CoreAddress × Session) := do
  let (outcome, buffer) ← Discovery.run request (blank s.capacity)
  pure (outcome, ⟨buffer⟩)

def inspectBuffer (capacity : Nat) : String :=
  Text.record "DiscoveryBuffer" [("capacity", toString capacity)]

def inspect (s : Session) : String :=
  Text.record "DiscoverySession" [("buffer", inspectBuffer s.capacity)] true

end Session
end CoreLocator
