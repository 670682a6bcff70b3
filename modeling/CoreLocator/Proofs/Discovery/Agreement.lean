import CoreLocator.Proofs.Discovery.Stages
import CoreLocator.Proofs.Response.Body

/-! Runs on networks that accept the same connects and have seen the same. What a run returns and
leaves in the journal is then settled by what comes over its connection, be it a document or the
reason why there is none. -/
namespace CoreLocator
open Network Network.Script Response

/-- Both accept the same connects, and their journals are the same. -/
structure Network.Script.Agree (script other : Script) : Prop where
  accepts : other.accepts = script.accepts
  journal : other.journal = script.journal

namespace Network.Script

variable {script other after after' : Script} {c c' : Handle}

theorem Agree.refl (script : Script) : Agree script script := ⟨rfl, rfl⟩

theorem Agree.note (agree : Agree script other) (r r' : Log.Record) :
    Agree (script.note r) (other.note r') := ⟨agree.accepts, agree.journal⟩

theorem Agree.asked (agree : Agree script other) (e : Endpoint) :
    Agree (script.asked e) (other.asked e) := by
  refine ⟨agree.accepts, ?_⟩
  simp only [Script.asked, agree.journal]

theorem Agree.posted (agree : Agree script other) (data : Bytes) :
    Agree (script.posted data) (other.posted data) := by
  refine ⟨agree.accepts, ?_⟩
  simp only [Script.posted, agree.journal]

theorem Agree.of_routes (agree : Agree script other) (routes : after.routes = script.routes)
    (routes' : after'.routes = other.routes) (journal : after'.journal = after.journal) :
    Agree after after' := by
  refine ⟨?_, journal⟩
  funext host port
  rw [accepts_of_routes routes', agree.accepts, accepts_of_routes routes]

theorem Agree.of_peers (peers : ∀ host port, other.peer? host port = script.peer? host port)
    (journal : other.journal = script.journal) : Agree script other := by
  refine ⟨?_, journal⟩
  funext host port
  rw [accepts_eq_isSome_peer?, accepts_eq_isSome_peer?, peers]

theorem Agree.takenDown (agree : Agree script other) (taken : TakenDown c script after)
    (taken' : TakenDown c' other after') : Agree after after' :=
  agree.of_routes taken.routes taken'.routes
    (by rw [taken.journal, taken'.journal, agree.journal])

end Network.Script

namespace Selection

variable {script other after after' : Script} {ca : Bytes} {asked : List Selected} {closed : Nat}

theorem Probes.journal (probes : Probes ca asked closed script after) : after.journal =
    ⟨script.journal.connects ++ asked.map (fun s => (s.host, s.port)),
      script.journal.trust ++ asked.map (fun _ => some ca), script.journal.sent,
      script.journal.disconnects + closed⟩ := by
  rw [← probes.connects, ← probes.trust, ← probes.sent, ← probes.disconnects]

theorem Probes.agree (probes : Probes ca asked closed script after)
    (probes' : Probes ca asked closed other after') (agree : Agree script other) :
    Agree after after' :=
  agree.of_routes probes.routes probes'.routes
    (by rw [probes.journal, probes'.journal, agree.journal])

theorem choose_agree (agree : Agree script other) (selection : Selection)
    (document ca : Bytes) :
    (selection.choose (m := StateM Script) document ca other).1 =
        (selection.choose (m := StateM Script) document ca script).1 ∧
      Agree (selection.choose (m := StateM Script) document ca script).2
        (selection.choose (m := StateM Script) document ca other).2 := by
  cases selection with
  | automatic =>
    have accepted : accepts other = accepts script := by
      funext s
      exact congrFun (congrFun agree.accepts s.host) s.port
    dsimp only [choose]
    generalize Candidate.list document = candidates
    obtain ⟨after, outcome, probes⟩ := probe_outcome ca 0 candidates script
    obtain ⟨after', outcome', probes'⟩ := probe_outcome ca 0 candidates other
    rw [accepted] at outcome' probes'
    rw [outcome, outcome']
    exact ⟨rfl, probes.agree probes' agree⟩
  | manual index =>
    dsimp only [choose]
    generalize (Candidate.at? document index).bind Candidate.selected? = found
    cases found with
    | none => exact ⟨rfl, agree.note _ _⟩
    | some s => exact ⟨rfl, agree.note _ _⟩

end Selection

namespace Discovery

variable {script other opened after after' : Script} {request : DiscoveryRequest}
  {link : Link Handle} {buffer written left : Bytes} {fetched : Except Failure Bytes}

/-- A start that goes through leaves a connection with all of the peer's bytes before it. -/
theorem start_delivers {chunks : List Bytes} {failAtEnd : Bool} (endpoint : Endpoint)
    {thingName : String} {length : Nat}
    (wrote : Request.write buffer thingName = (.ok length, written))
    (route : script.routeTo? endpoint.host endpoint.port = some (.respond chunks failAtEnd)) :
    ∃ opened, start (m := StateM Script) endpoint thingName buffer script =
        ((.ok (.ofConnection ⟨script.streams.length⟩), written), opened) ∧
      opened.Unread ⟨script.streams.length⟩ chunks.flatten failAtEnd ∧
      opened.routes = script.routes ∧
      opened.journal = ((script.asked endpoint).posted (Request.bytes thingName)).journal := by
  obtain ⟨record, started⟩ := start_sent endpoint wrote route
  have unread := unread_of_respond script endpoint chunks failAtEnd
  exact ⟨_, started, unread.of_streams rfl, rfl, rfl⟩

theorem interpret_agree (agree : Agree script other) (document : Bytes) (selection : Selection) :
    (interpret (m := StateM Script) document selection other).1 =
        (interpret (m := StateM Script) document selection script).1 ∧
      Agree (interpret (m := StateM Script) document selection script).2
        (interpret (m := StateM Script) document selection other).2 := by
  obtain ⟨certificate, certifies⟩ | ⟨failure, rejected⟩ := interpret_cases document selection
  · rw [interpret_of_certifies certifies, interpret_of_certifies certifies]
    obtain ⟨outcome, agree⟩ := Selection.choose_agree agree selection document certificate
    exact ⟨congrArg (Except.map (coreOf document certificate)) outcome, agree⟩
  · rw [rejected, rejected]
    exact ⟨rfl, agree⟩

/-- What comes over a link, with the buffer as it is left: a document, or the reason why there is
none. -/
inductive Fetched (link : Link Handle) (buffer : Bytes) (before : Script) :
    Except Failure Bytes → Bytes → Script → Prop
  | headless {failure : Failure} {kept : Link Handle} {scanned : Script} :
      readHead (m := StateM Script) link before = ((.error failure, kept), scanned) →
      Fetched link buffer before (.error failure) buffer scanned
  | undelivered {head : Head} {kept : Link Handle} {scanned received : Script} {failure : Failure}
      {reception : Reception Handle} :
      readHead (m := StateM Script) link before = ((.ok head, kept), scanned) →
      receiveDocument (m := StateM Script) kept buffer head scanned =
        ((.error failure, reception), received) →
      Fetched link buffer before (.error failure) reception.buffer received
  | delivered {head : Head} {kept : Link Handle} {scanned received : Script} {length : Nat}
      {reception : Reception Handle} :
      readHead (m := StateM Script) link before = ((.ok head, kept), scanned) →
      receiveDocument (m := StateM Script) kept buffer head scanned =
        ((.ok length, reception), received) → reception.link = ⟨none⟩ →
      Fetched link buffer before (.ok (reception.buffer.take length)) reception.buffer received

/-- What is made of what has come. -/
def conclude (selection : Selection) :
    Except Failure Bytes → StateM Script (Except Failure CoreAddress)
  | .error failure => pure (.error failure)
  | .ok document => interpret document selection

/-- A run concludes from what has come over its link, records apart. -/
theorem run_of_fetched
    (started : start (m := StateM Script) request.endpoint request.thingName buffer script =
      ((.ok link, written), opened)) (came : Fetched link written opened fetched left after) :
    ∃ told outcome concluded final, Agree after told ∧
      conclude request.selection fetched told = (outcome, concluded) ∧
      run (m := StateM Script) request buffer script = ((outcome, left), final) ∧
      final.journal = concluded.journal := by
  cases came with
  | headless read =>
    exact ⟨after, _, _, _, .refl after, rfl, run_of_headless started read, rfl⟩
  | undelivered read streamed =>
    exact ⟨after, _, _, _, .refl after, rfl, run_of_undelivered started read streamed, rfl⟩
  | delivered read streamed down =>
    obtain ⟨record, outcome, interpreted, final, meant, ran, ends⟩ :=
      run_of_delivered started read streamed down
    refine ⟨after.note record, outcome, interpreted, final, ⟨rfl, rfl⟩, meant, ran, ?_⟩
    rcases ends with rfl | ⟨_, rfl⟩
    · rfl
    · rfl

theorem conclude_agree (agree : Agree script other) (selection : Selection)
    (fetched : Except Failure Bytes) :
    (conclude selection fetched other).1 = (conclude selection fetched script).1 ∧
      (conclude selection fetched other).2.journal =
        (conclude selection fetched script).2.journal := by
  cases fetched with
  | error failure => exact ⟨rfl, agree.journal⟩
  | ok document =>
    obtain ⟨outcome, agree⟩ := interpret_agree agree document selection
    exact ⟨outcome, agree.journal⟩

/-- When the same has come over both links, both runs return the same. -/
theorem run_agree {buffer' written' left' : Bytes} {link' : Link Handle} {opened' : Script}
    (started : start (m := StateM Script) request.endpoint request.thingName buffer script =
      ((.ok link, written), opened))
    (started' : start (m := StateM Script) request.endpoint request.thingName buffer' other =
      ((.ok link', written'), opened'))
    (came : Fetched link written opened fetched left after)
    (came' : Fetched link' written' opened' fetched left' after') (agree : Agree after after') :
    (run (m := StateM Script) request buffer' other).1 =
        ((run (m := StateM Script) request buffer script).1.1, left') ∧
      (run (m := StateM Script) request buffer script).1.2 = left ∧
      (run (m := StateM Script) request buffer' other).2.journal =
        (run (m := StateM Script) request buffer script).2.journal := by
  obtain ⟨told, outcome, concluded, final, same, meant, ran, journal⟩ :=
    run_of_fetched started came
  obtain ⟨told', outcome', concluded', final', same', meant', ran', journal'⟩ :=
    run_of_fetched started' came'
  have both : Agree told told' := by
    refine ⟨?_, ?_⟩
    · rw [same'.accepts, agree.accepts, same.accepts]
    · rw [same'.journal, agree.journal, same.journal]
  obtain ⟨outcomes, journals⟩ := conclude_agree both request.selection fetched
  rw [meant, meant'] at outcomes journals
  rw [ran, ran', journal, journal']
  exact ⟨congrArg (·, left') outcomes, rfl, journals⟩

end Discovery
end CoreLocator
