import CoreLocator.Log
import CoreLocator.Network
import CoreLocator.Pause

/-! A network that follows a script: what each endpoint does is settled beforehand, and a journal
keeps what was asked of it. Every connection to an endpoint gets the whole script anew, and nothing
takes any time. -/
namespace CoreLocator.Network

inductive Route
  | refuse
  /-- The peer's bytes, no read reaching from one chunk into the next, and how the stream ends. -/
  | respond (chunks : List Bytes) (failAtEnd : Bool)
  deriving DecidableEq, Repr

/-- Pieces of `n` bytes, the last one possibly shorter. -/
def chunksOf (n : Nat) (s : Bytes) : List Bytes :=
  if _h : s = [] then [] else s.take (max n 1) :: chunksOf n (s.drop (max n 1))
termination_by s.length
decreasing_by
  have := List.length_pos_iff.2 _h
  simp only [List.length_drop]
  omega

/-- A route that delivers `s` in pieces of `n` bytes and then ends. -/
def Route.inChunks (n : Nat) (s : Bytes) : Route := .respond (chunksOf n s) false

structure Journal where
  connects : List (String × UInt16) := []
  trust : List (Option Bytes) := []
  sent : Bytes := []
  disconnects : Nat := 0
  deriving DecidableEq, Repr

/-- The side of a connection that the script plays. -/
structure Stream where
  chunks : List Bytes
  failAtEnd : Bool
  isOpen : Bool := true
  deriving DecidableEq, Repr

structure RouteEntry where
  host : String
  port : UInt16
  route : Route
  deriving DecidableEq, Repr

/-- Routes and journal, the streams of all connections ever made, and the log. -/
structure Script where
  routes : List RouteEntry := []
  journal : Journal := {}
  streams : List Stream := []
  log : List Log.Record := []
  deriving DecidableEq, Repr

/-- A connection is known by its place among all that were made. -/
structure Handle where
  index : Nat
  deriving DecidableEq, Repr

namespace Stream

/-- A chunk without bytes would look like the end, so such chunks are left out. -/
def ofRoute (chunks : List Bytes) (failAtEnd : Bool) : Stream :=
  { chunks := chunks.filter (· ≠ []), failAtEnd }

def receive (s : Stream) (room : Nat) : Except Fault (Received room) × Stream :=
  if s.isOpen then
    match s.chunks with
    | [] => (if s.failAtEnd then .error .reset else .ok ⟨[], Nat.zero_le _⟩, s)
    | chunk :: later =>
      let rest := chunk.drop room
      (.ok ⟨chunk.take room, List.length_take_le _ _⟩,
        { s with chunks := if rest = [] then later else rest :: later })
  else (.error .disconnected, s)

end Stream

namespace Script

def routeTo? (script : Script) (host : String) (port : UInt16) : Option Route :=
  (script.routes.find? fun e => e.host == host && e.port == port).map (·.route)

/-- A later route to an endpoint replaces an earlier one. -/
def addRoute (script : Script) (entry : RouteEntry) : Script :=
  { script with
    routes := script.routes.filter (fun e => !(e.host == entry.host && e.port == entry.port))
      ++ [entry] }

def ofRoutes (entries : List RouteEntry) : Script := entries.foldl addRoute {}

def clearJournal (script : Script) : Script := { script with journal := {} }

def connect (script : Script) (endpoint : Endpoint) : Except Fault Handle × Script :=
  let journal := { script.journal with
    connects := script.journal.connects ++ [(endpoint.host, endpoint.port)]
    trust := script.journal.trust ++ [endpoint.trust] }
  match script.routeTo? endpoint.host endpoint.port with
  | some (.respond chunks failAtEnd) =>
    (.ok ⟨script.streams.length⟩,
      { script with journal, streams := script.streams ++ [.ofRoute chunks failAtEnd] })
  | some .refuse => (.error (.noRoute endpoint.host endpoint.port), { script with journal })
  | none => (.error (.noRoute endpoint.host endpoint.port), { script with journal })

/-- Whatever is offered is accepted, as long as the connection is up. -/
def send (script : Script) (c : Handle) (data : Bytes) : Except Fault (Accepted data) × Script :=
  match script.streams[c.index]? with
  | none => (.error .disconnected, script)
  | some stream =>
    if stream.isOpen then
      (.ok (.all data),
        { script with journal := { script.journal with sent := script.journal.sent ++ data } })
    else (.error .disconnected, script)

def receive (script : Script) (c : Handle) (room : Nat) :
    Except Fault (Received room) × Script :=
  match script.streams[c.index]? with
  | none => (.error .disconnected, script)
  | some stream =>
    let (answer, stream) := stream.receive room
    (answer, { script with streams := script.streams.set c.index stream })

/-- Only the first disconnect of a connection counts. -/
def disconnect (script : Script) (c : Handle) : Script :=
  match script.streams[c.index]? with
  | none => script
  | some stream =>
    if stream.isOpen then
      { script with
        streams := script.streams.set c.index { stream with isOpen := false }
        journal := { script.journal with disconnects := script.journal.disconnects + 1 } }
    else script

end Script

instance : Network (StateM Script) Handle where
  connect endpoint := fun script => script.connect endpoint
  send c data := fun script => script.send c data
  receive c room := fun script => script.receive c room
  disconnect c := fun script => ((), script.disconnect c)

instance : Log (StateM Script) where
  record r := fun script => ((), { script with log := script.log ++ [r] })

instance : Pause (StateM Script) where
  pause _ := pure ()

end CoreLocator.Network
