import CoreLocator.Discovery
import CoreLocator.Proofs.Candidate
import CoreLocator.Proofs.Request

/-! The stages of a discovery on a scripted network, each of them by what it returns and what it
leaves of the network, and how a run is put together from them. -/
namespace CoreLocator.Discovery
open Network Network.Script Response

section Start
variable {endpoint : Endpoint} {thingName : String} {buffer written : Bytes} {script : Script}

theorem start_rejected {failure : Failure}
    (rejected : Request.write buffer thingName = (.error failure, written)) :
    start (m := StateM Script) endpoint thingName buffer script =
      ((.error failure, written), script) := by
  rw [start, rejected]
  rfl

section Written
variable {length : Nat} (endpoint : Endpoint)
  (wrote : Request.write buffer thingName = (.ok length, written))
include wrote

theorem start_refused (refused : script.accepts endpoint.host endpoint.port = false) :
    ∃ record, start (m := StateM Script) endpoint thingName buffer script =
      ((.error (.transport (.noRoute endpoint.host endpoint.port)), written),
        (script.asked endpoint).note record) := by
  rw [start, wrote]
  dsimp only
  rw [bind_of_eq (connect_of_refused endpoint refused)]
  exact ⟨_, rfl⟩

theorem start_sent {chunks : List Bytes} {failAtEnd : Bool}
    (route : script.routeTo? endpoint.host endpoint.port = some (.respond chunks failAtEnd)) :
    ∃ record, start (m := StateM Script) endpoint thingName buffer script =
      ((.ok (.ofConnection ⟨script.streams.length⟩), written),
        ((script.opened endpoint chunks failAtEnd).posted (Request.bytes thingName)).note
          record) := by
  obtain ⟨_, queued, -⟩ := unread_of_respond script endpoint chunks failAtEnd
  have sent := sendOver_of_up queued.up (Request.bytes_ne_nil thingName)
  rw [start, wrote]
  dsimp only
  rw [bind_of_eq (connect_of_respond endpoint route)]
  dsimp only
  rw [(Request.take_of_write wrote).1, Link.sendAll, Link.ofConnection]
  dsimp only
  rw [bind_of_eq sent]
  exact ⟨_, rfl⟩

end Written

end Start

/-- What a document has to be before its candidates are looked at. -/
structure Certifies (document certificate : Bytes) : Prop where
  valid : Document.validate document = .ok ()
  found : ∃ raw, Document.require document Document.certificatePath = .ok raw ∧
    Certificate.decode raw = .ok certificate

/-- A core as a document describes it. -/
def coreOf (document certificate : Bytes) (selected : Selected) : CoreAddress where
  host := selected.host
  port := selected.port
  certificate := some certificate
  groupId := (Document.search? document Document.groupIdPath).map Utf8.text
  coreArn := (Document.search? document Document.coreArnPath).map Utf8.text

section Interpret
variable {document certificate : Bytes} {selection : Selection} {script : Script}

/-- Without a certificate the network is left alone. -/
theorem interpret_cases (document : Bytes) (selection : Selection) :
    (∃ certificate, Certifies document certificate) ∨
    ∃ failure, ∀ {σ κ : Type} [Network (StateM σ) κ] [Log (StateM σ)] (s : σ),
      interpret (m := StateM σ) document selection s = (.error failure, s) := by
  unfold interpret
  cases valid : Document.validate document with
  | error defect => exact .inr ⟨_, fun _ => rfl⟩
  | ok _ =>
    cases found : Document.require document Document.certificatePath with
    | error failure => exact .inr ⟨_, fun _ => rfl⟩
    | ok raw =>
      cases decoded : Certificate.decode raw with
      | error defect => exact .inr ⟨_, fun _ => by dsimp only; rw [decoded]; rfl⟩
      | ok certificate => exact .inl ⟨certificate, valid, raw, found, decoded⟩

theorem interpret_of_certifies {σ κ : Type} [Network (StateM σ) κ] [Log (StateM σ)]
    (certifies : Certifies document certificate) (selection : Selection) (s : σ) :
    interpret (m := StateM σ) document selection s =
      let chosen := selection.choose (m := StateM σ) document certificate s
      (chosen.1.map (coreOf document certificate), chosen.2) := by
  obtain ⟨valid, raw, found, decoded⟩ := certifies
  obtain ⟨outcome, after, chosen⟩ : ∃ outcome after,
      selection.choose (m := StateM σ) document certificate s = (outcome, after) :=
    ⟨_, _, rfl⟩
  unfold interpret
  rw [valid]
  dsimp only
  rw [found]
  dsimp only
  rw [decoded]
  dsimp only
  rw [bind_of_eq chosen, chosen]
  cases outcome <;> rfl

/-- Probes trust the document's certificate, and without one there are none. A core that is chosen
automatically is the one that was probed last. -/
theorem interpret_probes (document : Bytes) (selection : Selection) (script : Script) :
    ∃ outcome after certificate asked closed,
      interpret (m := StateM Script) document selection script = (outcome, after) ∧
      Selection.Probes certificate asked closed script after ∧
      (asked ≠ [] → selection = .automatic ∧ Certifies document certificate) ∧
      ∀ core, selection = .automatic → outcome = .ok core →
        core.certificate = some certificate ∧ ∃ s, asked.getLast? = some s ∧
          s.host = core.host ∧ s.port = core.port ∧ Selection.accepts script s = true := by
  obtain ⟨certificate, certifies⟩ | ⟨failure, rejected⟩ := interpret_cases document selection
  · obtain ⟨chosen, after, asked, closed, same, probes, reason, last⟩ :=
      selection.choose_probes document certificate script
    rw [interpret_of_certifies certifies, same]
    refine ⟨_, after, certificate, asked, closed, rfl, probes,
      fun probed => ⟨reason probed, certifies⟩, fun core automatic found => ?_⟩
    cases chosen with
    | error failure => simp [Except.map] at found
    | ok s =>
      obtain rfl := Except.ok.inj found
      obtain ⟨tail, reached⟩ := last s automatic rfl
      exact ⟨rfl, s, tail, rfl, rfl, reached⟩
  · exact ⟨_, script, [], [], 0, rejected script, Selection.probes_refl [] script, nofun, nofun⟩

/-- On equal routes the result is the same. -/
theorem interpret_of_routes {other : Script} (same : other.routes = script.routes)
    (document : Bytes) (selection : Selection) :
    (interpret (m := StateM Script) document selection other).1 =
      (interpret (m := StateM Script) document selection script).1 := by
  obtain ⟨certificate, certifies⟩ | ⟨failure, rejected⟩ := interpret_cases document selection
  · simp only [interpret_of_certifies certifies,
      Selection.choose_of_routes same selection document certificate]
  · rw [rejected, rejected]

end Interpret

section Run
variable {request : DiscoveryRequest} {buffer written : Bytes} {script opened scanned received :
  Script} {failure : Failure} {link kept : Link Handle} {head : Head}
  {reception : Reception Handle} {length : Nat}

theorem run_of_stopped
    (started : start (m := StateM Script) request.endpoint request.thingName buffer script =
      ((.error failure, written), opened)) :
    run (m := StateM Script) request buffer script = ((.error failure, written), opened) := by
  rw [run]
  rw [bind_of_eq started]
  rfl

section Started
variable (started : start (m := StateM Script) request.endpoint request.thingName buffer script =
  ((.ok link, written), opened))
include started

theorem run_of_headless
    (read : readHead (m := StateM Script) link opened = ((.error failure, kept), scanned)) :
    run (m := StateM Script) request buffer script = ((.error failure, written), scanned) := by
  rw [run]
  rw [bind_of_eq started]
  dsimp only
  rw [bind_of_eq read]
  rfl

variable (read : readHead (m := StateM Script) link opened = ((.ok head, kept), scanned))
include read

theorem run_of_undelivered
    (streamed : receiveDocument (m := StateM Script) kept written head scanned =
      ((.error failure, reception), received)) :
    run (m := StateM Script) request buffer script =
      ((.error failure, reception.buffer), received) := by
  rw [run]
  rw [bind_of_eq started]
  dsimp only
  rw [bind_of_eq read]
  dsimp only
  rw [bind_of_eq streamed]
  rfl

/-- A run that has received a document ends as its interpretation does, up to records. -/
theorem run_of_delivered
    (streamed : receiveDocument (m := StateM Script) kept written head scanned =
      ((.ok length, reception), received)) (down : reception.link = ⟨none⟩) :
    ∃ record outcome interpreted after,
      interpret (m := StateM Script) (reception.buffer.take length) request.selection
        (received.note record) = (outcome, interpreted) ∧
      run (m := StateM Script) request buffer script = ((outcome, reception.buffer), after) ∧
      (after = interpreted ∨ ∃ record, after = interpreted.note record) := by
  have closed : reception.link.close (m := StateM Script) received = (⟨none⟩, received) := by
    rw [down]
    rfl
  obtain ⟨record, told⟩ : ∃ record, Log.debug (m := StateM Script)
      s!"[session] received {length} byte document from {request.endpoint.display}" received =
      ((), received.note record) := ⟨_, rfl⟩
  obtain ⟨outcome, interpreted, meant⟩ : ∃ outcome interpreted,
      interpret (m := StateM Script) (reception.buffer.take length) request.selection
        (received.note record) = (outcome, interpreted) := ⟨_, _, rfl⟩
  refine ⟨record, outcome, interpreted, ?_⟩
  rw [run, bind_of_eq started]
  dsimp only
  rw [bind_of_eq read]
  dsimp only
  rw [bind_of_eq streamed]
  dsimp only
  rw [bind_of_eq closed, bind_of_eq told, bind_of_eq meant]
  cases outcome with
  | error failure => exact ⟨_, meant, rfl, .inl rfl⟩
  | ok core => exact ⟨_, meant, rfl, .inr ⟨_, rfl⟩⟩

end Started
end Run
end CoreLocator.Discovery
