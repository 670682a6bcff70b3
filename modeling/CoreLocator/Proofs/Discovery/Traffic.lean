import CoreLocator.Proofs.Discovery.Framing
import CoreLocator.Proofs.Discovery.Interpretation

/-! What a discovery asks of the network. The request goes to the service alone and once; what is
asked later is a probe that trusts the certificate of the document that came back. -/
namespace CoreLocator.Discovery
open Network Network.Script Response

variable {request : DiscoveryRequest} {buffer : Bytes} {script : Script}

/-- The document of a run: the head was read, and the body received as long as announced. -/
inductive Documented (request : DiscoveryRequest) (buffer : Bytes) (script : Script) : Bytes → Prop
  | received {link kept : Link Handle} {written : Bytes} {opened scanned received : Script}
      {head : Head} {reception : Reception Handle} :
      start (m := StateM Script) request.endpoint request.thingName buffer script =
        ((.ok link, written), opened) →
      readHead (m := StateM Script) link opened = ((.ok head, kept), scanned) →
      receiveDocument (m := StateM Script) kept written head scanned =
        ((.ok head.contentLength, reception), received) →
      Documented request buffer script (reception.buffer.take head.contentLength)

/-- Between the two states the service has been asked, and these bytes sent. -/
structure Asks (request : DiscoveryRequest) (sent : Bytes) (before after : Script) : Prop where
  routes : after.routes = before.routes
  connects : after.journal.connects = before.journal.connects ++ [(request.host, request.port)]
  trust : after.journal.trust = before.journal.trust ++ [none]
  sent : after.journal.sent = before.journal.sent ++ sent

theorem Asks.reads {sent : Bytes} {before middle after : Script} {c : Handle}
    (asks : Asks request sent before middle) (reads : Reads c middle after) :
    Asks request sent before after := by
  refine ⟨reads.routes.trans asks.routes, ?_, ?_, ?_⟩
  · rw [reads.journal, asks.connects]
  · rw [reads.journal, asks.trust]
  · rw [reads.journal, asks.sent]

theorem Asks.closes {sent : Bytes} {before middle after : Script} {c : Handle}
    (asks : Asks request sent before middle) (closes : Closes c middle after)
    (up : (middle.streams[c.index]?).map Stream.isOpen = some true) :
    Asks request sent before after := by
  have taken := closes.takenDown up
  refine ⟨taken.routes.trans asks.routes, ?_, ?_, ?_⟩
  · rw [taken.journal, asks.connects]
  · rw [taken.journal, asks.trust]
  · rw [taken.journal, asks.sent]

def payload (request : DiscoveryRequest) (script : Script) : Bytes :=
  if script.accepts request.host request.port then Request.bytes request.thingName else []

section Written
variable {length : Nat} {written : Bytes}
  (wrote : Request.write buffer request.thingName = (.ok length, written))
include wrote

theorem start_asks (script : Script) : ∃ outcome opened,
    start (m := StateM Script) request.endpoint request.thingName buffer script =
      ((outcome, written), opened) ∧
    Asks request (payload request script) script opened ∧
    ((∃ failure, outcome = .error failure) ∨
      ∃ c, outcome = .ok (.ofConnection c) ∧
        (opened.streams[c.index]?).map Stream.isOpen = some true) := by
  unfold payload
  cases reached : script.accepts request.host request.port with
  | false =>
    obtain ⟨record, started⟩ := start_refused request.endpoint wrote reached
    exact ⟨_, _, started, ⟨rfl, rfl, rfl, (List.append_nil _).symm⟩, .inl ⟨_, rfl⟩⟩
  | true =>
    obtain ⟨chunks, failAtEnd, route⟩ := respond_of_accepts reached
    obtain ⟨record, started⟩ := start_sent request.endpoint wrote route
    have up := (unread_of_respond script request.endpoint chunks failAtEnd).up
    exact ⟨_, _, started, ⟨rfl, rfl, rfl, rfl⟩, .inr ⟨_, rfl, up⟩⟩

/-- Then the run ends with the service asked and no one else, or it interprets the document that it
has received. -/
theorem run_cases (script : Script) :
    ∃ middle, Asks request (payload request script) script middle ∧
      ((∃ failure kept, run (m := StateM Script) request buffer script =
          ((.error failure, kept), middle)) ∨
        ∃ document kept outcome interpreted after, Documented request buffer script document ∧
          interpret (m := StateM Script) document request.selection middle =
            (outcome, interpreted) ∧
          run (m := StateM Script) request buffer script = ((outcome, kept), after) ∧
          (after = interpreted ∨ ∃ record, after = interpreted.note record)) := by
  obtain ⟨_, opened, started, asks, ⟨failure, rfl⟩ | ⟨c, rfl, up⟩⟩ := start_asks wrote script
  · exact ⟨opened, asks, .inl ⟨_, _, run_of_stopped started⟩⟩
  obtain ⟨head, scanned, read, reads, checked⟩ | ⟨failure, scanned, read, closes⟩ :=
    readHead_closes c opened
  · obtain ⟨outcome, reception, received, streamed⟩ : ∃ outcome reception received,
        receiveDocument (m := StateM Script) (.ofConnection c) written head scanned =
          ((outcome, reception), received) := ⟨_, _, _, rfl⟩
    obtain ⟨down, closes, whole⟩ := receiveDocument_closes c written head scanned
    rw [streamed] at down closes whole
    have asks := (asks.reads reads).closes closes (reads.up.trans up)
    cases outcome with
    | error failure =>
      exact ⟨received, asks, .inl ⟨_, _, run_of_undelivered started read streamed⟩⟩
    | ok length =>
      obtain rfl : length = head.contentLength := by
        rw [whole length rfl, documentSize_of_lt (ScanState.lt_of_checkedLength checked),
          Nat.add_sub_cancel]
      obtain ⟨record, outcome, interpreted, after, meant, ran, ends⟩ :=
        run_of_delivered started read streamed down
      exact ⟨received.note record, asks.reads (reads_note c received record),
        .inr ⟨_, _, outcome, interpreted, after, .received started read streamed, meant, ran,
          ends⟩⟩
  · exact ⟨scanned, asks.closes closes up, .inl ⟨_, _, run_of_headless started read⟩⟩

end Written

/-- What a run does on the network, for every set of routes and every way in which it ends. -/
theorem run_traffic (request : DiscoveryRequest) (buffer : Bytes) (script : Script) :
    let ended := run (m := StateM Script) request buffer script
    let before := script.journal
    let after := ended.2.journal
    match Request.write buffer request.thingName with
    | (.error _, _) => ended.2 = script
    | (.ok _, _) => ∃ (probes : List Selected) (certificate : Bytes),
      ended.2.routes = script.routes ∧
      after.connects = before.connects ++
        (request.host, request.port) :: probes.map (fun s => (s.host, s.port)) ∧
      after.trust = before.trust ++ none :: probes.map (fun _ => some certificate) ∧
      after.sent = before.sent ++ (if script.accepts request.host request.port then
        Bytes.ofString "GET /greengrass/discover/thing/" ++ Bytes.ofString request.thingName ++
          Bytes.ofString " HTTP/1.1\r\n\r\n" else []) ∧
      (probes ≠ [] → request.selection = .automatic ∧
        ∃ document, Documented request buffer script document ∧ Certifies document certificate) ∧
      ∀ core, request.selection = .automatic → ended.1.1 = .ok core →
        after.connects.getLast? = some (core.host, core.port) ∧
        after.trust.getLast? = some core.certificate ∧ core.certificate = some certificate ∧
        script.accepts core.host core.port = true ∧ probes ≠ [] := by
  intro ended before after
  obtain ⟨outcome, written, wrote⟩ : ∃ outcome written,
      Request.write buffer request.thingName = (outcome, written) := ⟨_, _, rfl⟩
  rw [wrote]
  cases outcome with
  | error failure => exact congrArg Prod.snd (run_of_stopped (start_rejected wrote))
  | ok length =>
    obtain ⟨middle, asks, ⟨failure, kept, ran⟩ |
      ⟨document, kept, outcome, _, _, documented, meant, ran, ends⟩⟩ := run_cases wrote script
    · refine ⟨[], [], ?_⟩
      simp only [ended, before, after, ran]
      exact ⟨asks.routes, asks.connects, asks.trust, asks.sent, nofun, nofun⟩
    · obtain ⟨_, _, certificate, probes, closed, same, probed, reason, last⟩ :=
        interpret_probes document request.selection middle
      obtain ⟨rfl, rfl⟩ := Prod.mk.inj (meant.symm.trans same)
      have all : Selection.Probes certificate probes closed middle ended.2 := by
        rw [show ended.2 = _ from congrArg Prod.snd ran]
        rcases ends with rfl | ⟨record, rfl⟩
        · exact probed
        · exact probed.note record
      have connects : after.connects = before.connects ++
          (request.host, request.port) :: probes.map (fun s => (s.host, s.port)) := by
        rw [all.connects, asks.connects, List.append_assoc, List.singleton_append]
      have trust : after.trust =
          before.trust ++ none :: probes.map (fun _ => some certificate) := by
        rw [all.trust, asks.trust, List.append_assoc, List.singleton_append]
      refine ⟨probes, certificate, all.routes.trans asks.routes, connects, trust,
        all.sent.trans asks.sent, fun probed => ⟨(reason probed).1, document, documented,
          (reason probed).2⟩, fun core automatic found => ?_⟩
      rw [show ended.1.1 = _ from congrArg (fun run => run.1.1) ran] at found
      obtain ⟨own, s, tail, host, port, reached⟩ := last core automatic found
      obtain ⟨front, rfl⟩ := List.getLast?_eq_some_iff.mp tail
      rw [← host, ← port, own]
      refine ⟨?_, ?_, rfl, ?_, by simp⟩
      · rw [connects, List.map_append, ← List.cons_append, ← List.append_assoc]
        exact List.getLast?_concat
      · rw [trust, List.map_append, ← List.cons_append, ← List.append_assoc]
        exact List.getLast?_concat
      · rw [← accepts_of_routes asks.routes]
        exact reached

open Json in
def twoPlaces : Source where
  before := []
  value := .object [] [.plain "GGGroups" <| only <| .object []
    [.plain "CAs" (only (.text [.plain 'A' (by decide), .letter .lineFeed,
        .plain 'B' (by decide), .letter .lineFeed])),
      .plain "Cores" <| only <| .object [] [.plain "Connectivity" <| .list []
        [⟨[], .object [] [.plain "HostAddress" (.text [.plain 'a' (by decide)]),
            .plain "PortNumber" (.number ⟨false, 1, none, none⟩)], []⟩,
          ⟨[], .object [] [.plain "HostAddress" (.text [.plain 'b' (by decide)]),
            .plain "PortNumber" (.number ⟨false, 2, none, none⟩)], []⟩]]]]
  after := []

/-- The service is asked with one request, and both places are probed with nothing. -/
theorem run_traffic_two_probes :
    let request : DiscoveryRequest := { host := "gg", port := 8443, thingName := "t" }
    let buffer : Bytes := List.replicate 160 0
    let script : Script := { routes := [⟨"b", 2, .respond [] false⟩,
      ⟨"gg", 8443, .respond [.ofString "content-length: 132\r\n\r\n", twoPlaces.text] false⟩] }
    let certificate : Bytes := .ofString "A\nB"
    let ended := run (m := StateM Script) request buffer script
    ended.1.1 = .ok ⟨"b", 2, some certificate, none, none⟩ ∧
      ended.2.journal.connects = [("gg", 8443), ("a", 1), ("b", 2)] ∧
      ended.2.journal.trust = [none, some certificate, some certificate] ∧
      ended.2.journal.sent = .ofString "GET /greengrass/discover/thing/t HTTP/1.1\r\n\r\n" ∧
      ∃ document, Documented request buffer script document ∧ Certifies document certificate := by
  intro request buffer script certificate ended
  obtain ⟨written, wrote⟩ : ∃ written, Request.write buffer request.thingName =
      (.ok 45, written) := ⟨_, Prod.ext (by decide +kernel) rfl⟩
  obtain ⟨found, connects⟩ : ended.1.1 = .ok ⟨"b", 2, some certificate, none, none⟩ ∧
      ended.2.journal.connects = [("gg", 8443), ("a", 1), ("b", 2)] := by
    decide +kernel
  have traffic := run_traffic request buffer script
  rw [wrote] at traffic
  obtain ⟨probes, trusted, -, asked, trust, sent, reason, last⟩ := traffic
  obtain ⟨-, -, own, -, probed⟩ := last _ rfl found
  obtain rfl := Option.some.inj own
  obtain ⟨-, document, documented, certifies⟩ := reason probed
  have two : probes.length = 2 := by
    have count := congrArg List.length (asked.symm.trans connects)
    rw [List.length_append, List.length_cons, List.length_map] at count
    exact Nat.succ.inj ((Nat.zero_add _).symm.trans count)
  have reached : script.accepts request.host request.port = true := by decide +kernel
  refine ⟨found, connects, ?_, ?_, document, documented, certifies⟩
  · rw [List.map_const', two] at trust
    exact trust
  · rw [if_pos reached] at sent
    rw [sent]
    decide +kernel

end CoreLocator.Discovery
