import CoreLocator.Proofs.Discovery.Agreement
import CoreLocator.Proofs.Response.Delivery

/-! How the bytes of a peer are cut into chunks. As long as no more of them follow the head than it
announces, neither a head nor a document nor a whole discovery depends on the cuts. -/
namespace CoreLocator
open Network Network.Script Response

namespace Discovery

variable {script other : Script} {c c' : Handle} {bytes : Bytes} {failAtEnd : Bool}

section Reception

/-- What follows the head of these bytes is not more than it announces. -/
def Measured (failAtEnd : Bool) (bytes : Bytes) : Prop :=
  ∀ head, (headOf failAtEnd bytes).1 = .ok head →
    (headOf failAtEnd bytes).2.length ≤ head.contentLength

theorem fetched_of_bytes (measured : Measured failAtEnd bytes) (buffer : Bytes) :
    ∃ fetched left, ∀ (script : Script) (c : Handle), script.Unread c bytes failAtEnd →
      ∃ after, Fetched (.ofConnection c) buffer script fetched left after ∧
        TakenDown c script after := by
  cases found : (headOf failAtEnd bytes).1 with
  | error failure =>
    refine ⟨.error failure, buffer, fun script c unread => ?_⟩
    obtain ⟨scanned, -, reads, read⟩ := readHead_unread unread
    rw [found] at read
    have closes : Closes c script (scanned.disconnect c) := ⟨scanned, reads, rfl⟩
    exact ⟨_, .headless read, closes.takenDown unread.up⟩
  | ok head =>
    obtain ⟨positive, size⟩ := documentSize_of_headOf found
    obtain ⟨outcome, reception, down, received⟩ :=
      receiveDocument_of_bytes failAtEnd buffer positive size (measured head found)
    have taken (script : Script) (c : Handle) (unread : script.Unread c bytes failAtEnd) :
        ∃ scanned after, readHead (m := StateM Script) (.ofConnection c) script =
            ((.ok head, .ofConnection c), scanned) ∧
          receiveDocument (m := StateM Script) (.ofConnection c) buffer head scanned =
            ((outcome, reception), after) ∧
          TakenDown c script after := by
      obtain ⟨scanned, left, reads, read⟩ := readHead_unread unread
      rw [found] at read
      have closes := (receiveDocument_closes c buffer head scanned).2.1
      exact ⟨scanned, _, read, Prod.ext (received scanned c left) rfl,
        (reads.closes closes).takenDown unread.up⟩
    cases outcome with
    | error failure =>
      refine ⟨.error failure, reception.buffer, fun script c unread => ?_⟩
      obtain ⟨scanned, after, read, streamed, taken⟩ := taken script c unread
      exact ⟨after, .undelivered read streamed, taken⟩
    | ok length =>
      refine ⟨.ok (reception.buffer.take length), reception.buffer, fun script c unread => ?_⟩
      obtain ⟨scanned, after, read, streamed, taken⟩ := taken script c unread
      exact ⟨after, .delivered read streamed down, taken⟩

theorem readHead_alike (unread : script.Unread c bytes failAtEnd)
    (unread' : other.Unread c' bytes failAtEnd) :
    let read := readHead (m := StateM Script) (.ofConnection c) script
    let read' := readHead (m := StateM Script) (.ofConnection c') other
    read'.1.1 = read.1.1 ∧ read'.2.left c' = read.2.left c ∧
      read.2.left c = (headOf failAtEnd bytes).2 ∧ read.1.1 = (headOf failAtEnd bytes).1 := by
  intro read read'
  obtain ⟨scanned, left, -, same⟩ := readHead_unread unread
  obtain ⟨scanned', left', -, same'⟩ := readHead_unread unread'
  simp only [read, read', same, same']
  cases (headOf failAtEnd bytes).1 with
  | error failure =>
    simp only [left_disconnect, left.left, left'.left, and_self]
  | ok head => exact ⟨rfl, left'.left.trans left.left.symm, left.left, rfl⟩

theorem receiveDocument_alike (unread : script.Unread c bytes failAtEnd)
    (unread' : other.Unread c' bytes failAtEnd) {head : Head} (buffer : Bytes)
    (found : (readHead (m := StateM Script) (.ofConnection c) script).1.1 = .ok head)
    (within : ((readHead (m := StateM Script) (.ofConnection c) script).2.left c).length ≤
      head.contentLength) :
    let read := readHead (m := StateM Script) (.ofConnection c) script
    let read' := readHead (m := StateM Script) (.ofConnection c') other
    let received := receiveDocument (m := StateM Script) read.1.2 buffer head read.2
    let received' := receiveDocument (m := StateM Script) read'.1.2 buffer head read'.2
    received'.1 = received.1 ∧
      (other.journal = script.journal → received'.2.journal = received.2.journal) := by
  intro read read' received received'
  obtain ⟨-, -, rest, outcome⟩ := readHead_alike unread unread'
  rw [outcome] at found
  rw [rest] at within
  obtain ⟨positive, size⟩ := documentSize_of_headOf found
  obtain ⟨ended, reception, -, ends⟩ :=
    receiveDocument_of_bytes failAtEnd buffer positive size within
  obtain ⟨scanned, left, reads, same⟩ := readHead_unread unread
  obtain ⟨scanned', left', reads', same'⟩ := readHead_unread unread'
  rw [found] at same same'
  simp only [received, received', read, read', same, same']
  refine ⟨(ends scanned' c' left').trans (ends scanned c left).symm, fun journal => ?_⟩
  have taken := (receiveDocument_closes c buffer head scanned).2.1.takenDown left.up
  have taken' := (receiveDocument_closes c' buffer head scanned').2.1.takenDown left'.up
  rw [taken.journal, taken'.journal, reads.journal, reads'.journal, journal]

end Reception

theorem run_of_peers (request : DiscoveryRequest) (buffer : Bytes)
    (peers : ∀ host port, other.peer? host port = script.peer? host port)
    (journal : other.journal = script.journal)
    (measured : ∀ bytes failAtEnd,
      script.peer? request.host request.port = some (bytes, failAtEnd) →
        Measured failAtEnd bytes) :
    (run (m := StateM Script) request buffer other).1 =
        (run (m := StateM Script) request buffer script).1 ∧
      (run (m := StateM Script) request buffer other).2.journal =
        (run (m := StateM Script) request buffer script).2.journal := by
  have agree := Agree.of_peers peers journal
  obtain ⟨outcome, written, wrote⟩ : ∃ outcome written,
      Request.write buffer request.thingName = (outcome, written) := ⟨_, _, rfl⟩
  cases outcome with
  | error failure =>
    rw [run_of_stopped (start_rejected wrote), run_of_stopped (start_rejected wrote)]
    exact ⟨rfl, journal⟩
  | ok length =>
    cases reached : script.accepts request.host request.port with
    | false =>
      have refused : other.accepts request.host request.port = false := by
        rw [agree.accepts, reached]
      obtain ⟨record, started⟩ := start_refused request.endpoint wrote reached
      obtain ⟨record', started'⟩ := start_refused request.endpoint wrote refused
      rw [run_of_stopped started, run_of_stopped started']
      exact ⟨rfl, (agree.asked request.endpoint).journal⟩
    | true =>
      obtain ⟨chunks, failAtEnd, route⟩ := respond_of_accepts reached
      have peer := peer?_of_respond route
      obtain ⟨chunks', route', flat⟩ :=
        respond_of_peer? ((peers request.host request.port).trans peer)
      obtain ⟨opened, started, unread, routes, asked⟩ :=
        start_delivers request.endpoint wrote route
      obtain ⟨opened', started', unread', routes', asked'⟩ :=
        start_delivers request.endpoint wrote route'
      rw [flat] at unread'
      obtain ⟨fetched, left, brings⟩ := fetched_of_bytes (measured _ _ peer) written
      obtain ⟨after, came, taken⟩ := brings opened _ unread
      obtain ⟨after', came', taken'⟩ := brings opened' _ unread'
      have open_agree : Agree opened opened' := by
        refine agree.of_routes routes routes' ?_
        rw [asked, asked', ((agree.asked request.endpoint).posted _).journal]
      obtain ⟨same, kept, journals⟩ :=
        run_agree started started' came came' (open_agree.takenDown taken taken')
      refine ⟨?_, journals⟩
      rw [same, ← kept]

/-- On equal bytes, with any ending, a head is read alike and leaves the same bytes behind it. If
these are not more than the head announces, the document is received alike as well, and a discovery
returns the same, with the same in the buffer and in the journal. -/
theorem chunking_immaterial :
    (∀ (script other : Script) (c c' : Handle) (bytes : Bytes) (failAtEnd : Bool),
      script.Unread c bytes failAtEnd → other.Unread c' bytes failAtEnd →
      let read := readHead (m := StateM Script) (.ofConnection c) script
      let read' := readHead (m := StateM Script) (.ofConnection c') other
      read'.1.1 = read.1.1 ∧ read'.2.left c' = read.2.left c ∧
        ∀ head buffer, read.1.1 = .ok head → (read.2.left c).length ≤ head.contentLength →
          let received := receiveDocument (m := StateM Script) read.1.2 buffer head read.2
          let received' := receiveDocument (m := StateM Script) read'.1.2 buffer head read'.2
          received'.1 = received.1 ∧
            (other.journal = script.journal → received'.2.journal = received.2.journal)) ∧
    ∀ (script other : Script) (request : DiscoveryRequest) (buffer : Bytes),
      (∀ host port, other.peer? host port = script.peer? host port) →
      other.journal = script.journal →
      (∀ c connected head kept scanned, script.connect request.endpoint = (.ok c, connected) →
        readHead (m := StateM Script) (.ofConnection c) connected = ((.ok head, kept), scanned) →
        (scanned.left c).length ≤ head.contentLength) →
      (run (m := StateM Script) request buffer other).1 =
          (run (m := StateM Script) request buffer script).1 ∧
        (run (m := StateM Script) request buffer other).2.journal =
          (run (m := StateM Script) request buffer script).2.journal := by
  constructor
  · intro script other c c' bytes failAtEnd unread unread' read read'
    obtain ⟨outcome, left, -⟩ := readHead_alike unread unread'
    refine ⟨outcome, left, fun head buffer found within => ?_⟩
    exact receiveDocument_alike unread unread' buffer found within
  · intro script other request buffer peers journal measured
    refine run_of_peers request buffer peers journal fun bytes failAtEnd peer head found => ?_
    obtain ⟨chunks, route, rfl⟩ := respond_of_peer? peer
    have unread := unread_of_respond script request.endpoint chunks failAtEnd
    obtain ⟨scanned, left, -, read⟩ := readHead_unread unread
    rw [found] at read
    have within := measured _ _ head _ scanned (connect_of_respond request.endpoint route) read
    rwa [left.left] at within

/-- A response in one chunk, and with a chunk for each byte. -/
theorem chunking_immaterial_byte_by_byte :
    let bytes : Bytes := .ofString "content-length: 2\r\n\r\n\x7b\x7d"
    let whole : Script := { routes := [⟨"gg", 8443, .respond [bytes] false⟩] }
    let single : Script := { routes := [⟨"gg", 8443, .respond (bytes.map ([·])) false⟩] }
    let request : DiscoveryRequest := { host := "gg", port := 8443, thingName := "t" }
    (run (m := StateM Script) request (List.replicate 64 0) single).1 =
        (run (m := StateM Script) request (List.replicate 64 0) whole).1 ∧
      (run (m := StateM Script) request (List.replicate 64 0) single).2.journal =
        (run (m := StateM Script) request (List.replicate 64 0) whole).2.journal := by
  intro bytes whole single request
  have head : headOf false bytes = (.ok ⟨2⟩, [0x7B, 0x7D]) := by rfl
  refine chunking_immaterial.2 whole single request _ ?_ rfl ?_
  · intro host port
    have flat : (bytes.map ([·])).flatten = [bytes].flatten := by decide +kernel
    simp only [peer?, routeTo?, whole, single, List.find?_singleton]
    split
    · simp only [Option.map_some, Option.bind_some, Route.stream?, flat]
    · rfl
  · intro c connected head' kept scanned up read
    have unread : connected.Unread c bytes false := by
      obtain ⟨same, rfl⟩ := Prod.mk.inj up
      obtain rfl := Except.ok.inj same
      exact unread_of_respond whole request.endpoint [bytes] false
    obtain ⟨scanned', left, -, read'⟩ := readHead_unread unread
    rw [head] at read' left
    obtain ⟨same, rfl⟩ := Prod.mk.inj (read.symm.trans read')
    obtain rfl := Except.ok.inj (Prod.mk.inj same).1
    rw [left.left]
    exact Nat.le_refl 2

end Discovery
end CoreLocator
