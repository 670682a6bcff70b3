import CoreLocator.Proofs.Discovery.Stages
import CoreLocator.Proofs.Response.Body
import CoreLocator.Proofs.Response.Head

/-! A response whose head announces its body is taken apart where the head ends, however its bytes
are cut into chunks. What a discovery returns then depends on the body alone. -/
namespace CoreLocator.Discovery
open Network Network.Script Response

section Framed
variable {script scanned : Script} {c : Handle} {buffer body : Bytes} {failAtEnd : Bool}
  {chunks : List Bytes}

theorem receiveDocument_exact (unread : script.Unread c body failAtEnd) (nonempty : body ≠ [])
    (small : body.length + 1 < Decimal.wordLimit) (room : body.length + 1 ≤ buffer.length) :
    ∃ after, receiveDocument (m := StateM Script) (.ofConnection c) buffer ⟨body.length⟩ script =
        ((.ok body.length, ⟨⟨none⟩, body ++ 0 :: buffer.drop (body.length + 1), body.length⟩),
          after) ∧
      Closes c script after := by
  obtain ⟨chunks, queued, rfl⟩ := unread
  have size : (Head.mk chunks.flatten.length).documentSize = _ := documentSize_of_lt small
  have queued : script.Queued c (chunks ++ []) failAtEnd := by rwa [List.append_nil]
  have arrived : chunks ≠ [] := by
    rintro rfl
    exact nonempty rfl
  have outcome := receiveDocument_reached queued arrived size.symm (size ▸ room)
  exact ⟨_, Prod.ext outcome rfl, (receiveDocument_closes c buffer _ script).2.1⟩

variable (head : Announcement body.length) (nonempty : body ≠ [])
  (short : head.bytes.length ≤ maxHeadLength)
include nonempty short

theorem readHead_announced (unread : script.Unread c (head.bytes ++ body) failAtEnd) :
    ∃ after, readHead (m := StateM Script) (.ofConnection c) script =
        ((.ok ⟨body.length⟩, .ofConnection c), after) ∧
      after.Unread c body failAtEnd ∧ Reads c script after :=
  readHead_completes (head.completes (fun zero => nonempty (List.length_eq_zero_iff.mp zero)))
    unread short

theorem run_framed {request : DiscoveryRequest} {connector : Script} {length : Nat}
    {written : Bytes}
    (wrote : Request.write buffer request.thingName = (.ok length, written))
    (route : script.routeTo? request.host request.port = some (.respond chunks failAtEnd))
    (split : chunks.flatten = head.bytes ++ body) (small : body.length + 1 < Decimal.wordLimit)
    (room : body.length + 1 ≤ buffer.length) (same : connector.routes = script.routes) :
    (run (m := StateM Script) request buffer script).1.1 =
      (interpret (m := StateM Script) body request.selection connector).1 := by
  obtain ⟨record, started⟩ : ∃ record, start (m := StateM Script) request.endpoint
      request.thingName buffer script = ((.ok (.ofConnection ⟨script.streams.length⟩), written),
        ((script.opened request.endpoint chunks failAtEnd).posted
          (Request.bytes request.thingName)).note record) := start_sent request.endpoint wrote route
  have unread : (((script.opened request.endpoint chunks failAtEnd).posted
      (Request.bytes request.thingName)).note record).Unread ⟨script.streams.length⟩
      (head.bytes ++ body) failAtEnd :=
    split ▸ (unread_of_respond script request.endpoint chunks failAtEnd).of_streams rfl
  obtain ⟨scanned, read, left, reads⟩ := readHead_announced head nonempty short unread
  rw [← (Request.take_of_write wrote).2] at room
  obtain ⟨received, streamed, closes⟩ := receiveDocument_exact left nonempty small room
  obtain ⟨told, outcome, interpreted, after, meant, ran, -⟩ :=
    run_of_delivered started read streamed rfl
  have document : (body ++ 0 :: written.drop (body.length + 1)).take body.length = body :=
    List.take_left
  have routes : connector.routes = (received.note told).routes := by
    rw [same, Script.note, (closes.takenDown left.up).routes, reads.routes]
    rfl
  rw [document] at meant
  rw [ran, interpret_of_routes routes, meant]

end Framed

/-- The response is read byte for byte as it was framed, and the connection taken down once; so what
a discovery returns is what the body says on the same routes. -/
theorem framed_response {script : Script} {endpoint : Endpoint} {buffer body : Bytes}
    {chunks : List Bytes} {failAtEnd : Bool} (head : Announcement body.length)
    (route : script.routeTo? endpoint.host endpoint.port = some (.respond chunks failAtEnd))
    (split : chunks.flatten = head.bytes ++ body) (nonempty : body ≠ [])
    (short : head.bytes.length ≤ maxHeadLength) (room : body.length + 1 ≤ buffer.length) :
    (∃ c connected scanned received,
      script.connect endpoint = (.ok c, connected) ∧
      connected.Unread c (head.bytes ++ body) failAtEnd ∧
      readHead (m := StateM Script) (.ofConnection c) connected =
        ((.ok ⟨body.length⟩, .ofConnection c), scanned) ∧
      scanned.Unread c body failAtEnd ∧ scanned.journal = connected.journal ∧
      receiveDocument (m := StateM Script) (.ofConnection c) buffer ⟨body.length⟩ scanned =
        ((.ok body.length, ⟨⟨none⟩, body ++ 0 :: buffer.drop (body.length + 1), body.length⟩),
          received) ∧
      (received.streams[c.index]?).map Stream.isOpen = some false ∧
      received.journal =
        { connected.journal with disconnects := connected.journal.disconnects + 1 }) ∧
    ∀ (request : DiscoveryRequest) (connector : Script),
      request.host = endpoint.host → request.port = endpoint.port →
      Request.checkName request.thingName = .ok () →
      Request.length request.thingName ≤ buffer.length →
      connector.routes = script.routes →
      (run (m := StateM Script) request buffer script).1.1 =
        (interpret (m := StateM Script) body request.selection connector).1 := by
  have small : body.length + 1 < Decimal.wordLimit :=
    Nat.lt_of_le_of_lt (Nat.succ_le_of_lt head.lt_of_narrow) (by decide)
  constructor
  · have unread := unread_of_respond script endpoint chunks failAtEnd
    rw [split] at unread
    obtain ⟨scanned, read, left, reads⟩ := readHead_announced head nonempty short unread
    obtain ⟨received, streamed, closes⟩ := receiveDocument_exact left nonempty small room
    have taken := closes.takenDown left.up
    refine ⟨_, _, scanned, received, connect_of_respond endpoint route, unread, read, left,
      reads.journal, streamed, taken.down, ?_⟩
    rw [taken.journal, reads.journal]
  · intro request connector host port named holds same
    rw [← host, ← port] at route
    have wrote := Request.write_of_fits named holds
    exact run_framed head nonempty short wrote route split small room same

/-- The chunks are cut inside the name, inside the blank line and where the head ends. -/
theorem framed_response_cut_anywhere :
    let script : Script := { routes := [⟨"gg", 8443, .respond [.ofString "content-",
      .ofString "length: 2\r\n\r", [], .ofString "\n", [0x7B, 0x7D]] false⟩] }
    (run (m := StateM Script) { host := "gg", port := 8443, thingName := "t" }
        (List.replicate 64 0) script).1.1 =
      (interpret (m := StateM Script) [0x7B, 0x7D] .automatic script).1 := by
  intro script
  let head : Announcement 2 := {
    before := []
    blanks := 1
    rest := [0x0D, 0x0A]
    line := .inl rfl
    first := by decide +kernel
    narrow := by decide +kernel
    ended := by decide +kernel
    once := by
      intro part inside
      have within : part.length < 7 := Nat.lt_succ_of_le inside.length_le
      have all : ∀ n < 7, Bytes.blankLine <:+ (announcedValue 1 2 [0x0D, 0x0A]).take n →
          (announcedValue 1 2 [0x0D, 0x0A]).take n = announcedValue 1 2 [0x0D, 0x0A] := by
        decide +kernel
      rw [List.prefix_iff_eq_take.mp inside]
      exact all _ within }
  let endpoint : Endpoint := ⟨"gg", 8443, none⟩
  have reached : script.routeTo? endpoint.host endpoint.port =
      some (.respond [.ofString "content-", .ofString "length: 2\r\n\r", [], .ofString "\n",
        [0x7B, 0x7D]] false) := by
    decide +kernel
  exact (@framed_response script endpoint (List.replicate 64 0) [0x7B, 0x7D] _ _ head reached
    (by decide +kernel) (by decide +kernel) (by decide +kernel) (by decide +kernel)).2 _ script
    rfl rfl rfl (by decide +kernel) rfl

end CoreLocator.Discovery
