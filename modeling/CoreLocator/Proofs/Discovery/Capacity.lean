import CoreLocator.Proofs.Discovery.Admission
import CoreLocator.Proofs.Discovery.Agreement
import CoreLocator.Proofs.Discovery.Isolation
import CoreLocator.Proofs.Response.Delivery

/-! What the size of the buffer has to do with a discovery. There are two things to make room for,
the request and the document with a zero behind it. A buffer with room for both serves as well as
any larger one, and a smaller one is told how much the first of the two that does not fit takes. -/
namespace CoreLocator
open Network Network.Script Response

/-- No larger buffer is asked for. -/
def Failure.Sufficed {α : Type} (outcome : Except Failure α) : Prop :=
  ∀ capacity required, outcome ≠ .error (.bufferTooSmall capacity required)

theorem Failure.Repeatable.sufficed {α : Type} {outcome : Except Failure α}
    (repeatable : Repeatable outcome) : Sufficed outcome := by
  rintro capacity required rfl
  exact Bool.false_ne_true (repeatable_error.mp repeatable)

namespace Response

variable {bytes : Bytes} {failAtEnd : Bool}

theorem HeadScanner.sufficed_scanBytes (scanner : HeadScanner) (budget : Nat) :
    Failure.Sufficed (scanner.scanBytes failAtEnd budget bytes).1 := by
  induction budget generalizing scanner bytes with
  | zero => rintro capacity required ⟨⟩
  | succ budget ih =>
    cases bytes with
    | nil => cases failAtEnd <;> rintro capacity required ⟨⟩
    | cons b bytes =>
      rw [scanBytes]
      obtain ⟨outcome, next⟩ := scanner.push b
      rcases outcome with defect | _ | head
      · rintro capacity required ⟨⟩
      · exact ih next
      · rintro capacity required ⟨⟩

end Response

namespace Discovery

variable {script opened : Script} {request : DiscoveryRequest} {link : Link Handle}
  {buffer larger written written' : Bytes} {failAtEnd : Bool} {bytes : Bytes} {c : Handle}

section Start
variable (endpoint : Endpoint) {thingName : String} {length : Nat}

theorem start_of_room (wrote : Request.write buffer thingName = (.ok length, written))
    (wrote' : Request.write larger thingName = (.ok length, written')) (script : Script) :
    start (m := StateM Script) endpoint thingName larger script =
      (((start (m := StateM Script) endpoint thingName buffer script).1.1, written'),
        (start (m := StateM Script) endpoint thingName buffer script).2) := by
  unfold start
  rw [wrote, wrote']
  dsimp only
  rw [(Request.take_of_write wrote).1, (Request.take_of_write wrote').1, bind_apply, bind_apply]
  generalize Network.connect (m := StateM Script) endpoint script = answer
  obtain ⟨fault | c, connected⟩ := answer
  · rfl
  · dsimp only
    rw [bind_apply, bind_apply]
    generalize Link.sendAll (m := StateM Script) _ _ connected = sending
    obtain ⟨fault | sent, after⟩ := sending
    · rfl
    · rfl

end Start

theorem fetched_of_room (unread : opened.Unread c bytes failAtEnd) :
    ∃ fetched, Failure.Sufficed fetched ∧ ∀ buffer : Bytes,
      (∀ head, (headOf failAtEnd bytes).1 = .ok head → head.contentLength + 1 ≤ buffer.length) →
      ∃ left after, Fetched (.ofConnection c) buffer opened fetched left after ∧
        TakenDown c opened after := by
  obtain ⟨scanned, left, reads, read⟩ := readHead_unread unread
  have sufficed : Failure.Sufficed (headOf failAtEnd bytes).1 :=
    HeadScanner.sufficed_scanBytes .new maxHeadLength
  cases found : (headOf failAtEnd bytes).1 with
  | error failure =>
    rw [found] at read sufficed
    have closes : Closes c opened (scanned.disconnect c) := ⟨scanned, reads, rfl⟩
    refine ⟨.error failure, ?_, fun buffer _ => ?_⟩
    · intro capacity required same
      exact sufficed capacity required (congrArg _ (Except.error.inj same))
    · exact ⟨buffer, _, .headless read, closes.takenDown unread.up⟩
  | ok head =>
    rw [found] at read
    obtain ⟨positive, size⟩ := documentSize_of_headOf found
    obtain ⟨chunks, queued, -⟩ := left
    obtain ⟨outcome, sufficed, ends⟩ := receiveDocument_outcome queued positive size
    refine ⟨outcome, sufficed, fun buffer room => ?_⟩
    obtain ⟨same, document⟩ := ends buffer (size ▸ room head rfl)
    obtain ⟨down, closes, -⟩ := receiveDocument_closes c buffer head scanned
    have taken := (reads.closes closes).takenDown unread.up
    obtain ⟨ended, reception, after, streamed⟩ : ∃ ended reception after,
        receiveDocument (m := StateM Script) (.ofConnection c) buffer head scanned =
          ((ended, reception), after) := ⟨_, _, _, rfl⟩
    rw [streamed] at same document down taken
    cases outcome with
    | error failure =>
      obtain rfl : ended = .error failure := same
      exact ⟨_, after, .undelivered read streamed, taken⟩
    | ok whole =>
      obtain rfl : ended = .ok whole.length := same
      have came := Fetched.delivered read streamed down
      rw [document whole rfl] at came
      exact ⟨_, after, came, taken⟩

/-- The head that the service announces a document with. -/
def Announces (request : DiscoveryRequest) (script : Script) (head : Head) : Prop :=
  ∃ c connected kept scanned, script.connect request.endpoint = (.ok c, connected) ∧
    readHead (m := StateM Script) (.ofConnection c) connected = ((.ok head, kept), scanned)

theorem announces_iff {head : Head} : Announces request script head ↔
    ∃ bytes failAtEnd, script.peer? request.host request.port = some (bytes, failAtEnd) ∧
      (headOf failAtEnd bytes).1 = .ok head := by
  constructor
  · rintro ⟨c, connected, kept, scanned, up, read⟩
    cases reached : script.accepts request.host request.port with
    | false =>
      rw [connect_of_refused request.endpoint reached] at up
      simp at up
    | true =>
      obtain ⟨chunks, failAtEnd, route⟩ := respond_of_accepts reached
      rw [connect_of_respond request.endpoint route] at up
      obtain ⟨same, rfl⟩ := Prod.mk.inj up
      obtain rfl := Except.ok.inj same
      refine ⟨chunks.flatten, failAtEnd, peer?_of_respond route, ?_⟩
      obtain ⟨scanned', -, -, read'⟩ :=
        readHead_unread (unread_of_respond script request.endpoint chunks failAtEnd)
      rw [read] at read'
      cases found : (headOf failAtEnd chunks.flatten).1 with
      | error failure =>
        rw [found] at read'
        exact congrArg (fun ended => ended.1.1) read'.symm
      | ok head' =>
        rw [found] at read'
        exact congrArg (fun ended => ended.1.1) read'.symm
  · rintro ⟨bytes, failAtEnd, peer, found⟩
    obtain ⟨chunks, route, rfl⟩ := respond_of_peer? peer
    obtain ⟨scanned, -, -, read⟩ :=
      readHead_unread (unread_of_respond script request.endpoint chunks failAtEnd)
    rw [found] at read
    exact ⟨_, _, _, scanned, connect_of_respond request.endpoint route, read⟩

theorem Announces.of_routes {other : Script} {head : Head}
    (announced : Announces request other head) (routes : other.routes = script.routes) :
    Announces request script head := by
  obtain ⟨bytes, failAtEnd, peer, found⟩ := announces_iff.mp announced
  refine announces_iff.mpr ⟨bytes, failAtEnd, ?_, found⟩
  rw [← peer]
  simp only [peer?, routeTo?, routes]

theorem Announces.unique {other : Script} {head head' : Head}
    (announced : Announces request script head) (announced' : Announces request other head')
    (routes : other.routes = script.routes) : head' = head := by
  obtain ⟨bytes, failAtEnd, peer, found⟩ := announces_iff.mp announced
  obtain ⟨bytes', failAtEnd', peer', found'⟩ := announces_iff.mp (announced'.of_routes routes)
  obtain ⟨rfl, rfl⟩ := Prod.mk.inj (Option.some.inj (peer.symm.trans peer'))
  exact Except.ok.inj (found'.symm.trans found)

/-- Room for the request and for the document that is announced, if one is. -/
structure Roomy (request : DiscoveryRequest) (script : Script) (capacity : Nat) : Prop where
  holdsRequest : Request.length request.thingName ≤ capacity
  holdsDocument : ∀ head, Announces request script head → head.contentLength + 1 ≤ capacity

section Runs
variable (named : Request.checkName request.thingName = .ok ())
include named

theorem run_of_roomy (roomy : Roomy request script buffer.length)
    (roomy' : Roomy request script larger.length) :
    Failure.Sufficed (run (m := StateM Script) request buffer script).1.1 ∧
      (run (m := StateM Script) request larger script).1.1 =
        (run (m := StateM Script) request buffer script).1.1 ∧
      (run (m := StateM Script) request larger script).2.journal =
        (run (m := StateM Script) request buffer script).2.journal := by
  have wrote := Request.write_of_fits named roomy.holdsRequest
  have wrote' := Request.write_of_fits named roomy'.holdsRequest
  cases reached : script.accepts request.host request.port with
  | false =>
    obtain ⟨record, started⟩ := start_refused request.endpoint wrote reached
    obtain ⟨record', started'⟩ := start_refused request.endpoint wrote' reached
    rw [run_of_stopped started, run_of_stopped started']
    exact ⟨nofun, rfl, rfl⟩
  | true =>
    obtain ⟨chunks, failAtEnd, route⟩ := respond_of_accepts reached
    obtain ⟨opened, started, unread, -⟩ := start_delivers request.endpoint wrote route
    have started' := start_of_room request.endpoint wrote wrote' script
    rw [started] at started'
    have announced {head : Head} (found : (headOf failAtEnd chunks.flatten).1 = .ok head) :
        Announces request script head :=
      announces_iff.mpr ⟨_, _, peer?_of_respond route, found⟩
    have size := (Request.take_of_write wrote).2
    have size' := (Request.take_of_write wrote').2
    obtain ⟨fetched, sufficed, brings⟩ := fetched_of_room unread
    obtain ⟨left, after, came, taken⟩ := brings _ fun head found =>
      size ▸ roomy.holdsDocument head (announced found)
    obtain ⟨left', after', came', taken'⟩ := brings _ fun head found =>
      size' ▸ roomy'.holdsDocument head (announced found)
    obtain ⟨same, -, journal⟩ :=
      run_agree started started' came came' ((Agree.refl opened).takenDown taken taken')
    refine ⟨?_, by rw [same], journal⟩
    obtain ⟨told, outcome, concluded, final, -, meant, ran, -⟩ := run_of_fetched started came
    rw [ran]
    cases fetched with
    | error failure =>
      obtain ⟨rfl, -⟩ := Prod.mk.inj meant
      intro capacity required same
      exact sufficed capacity required (congrArg Except.error (Except.error.inj same))
    | ok document =>
      have interpreted := (repeatable_interpret document request.selection told).sufficed
      rw [show interpret (m := StateM Script) document request.selection told =
        (outcome, concluded) from meant] at interpreted
      exact interpreted

theorem run_without_request (small : buffer.length < Request.length request.thingName) :
    (run (m := StateM Script) request buffer script).1.1 =
      .error (.bufferTooSmall buffer.length (Request.length request.thingName)) := by
  rw [run_of_stopped (start_rejected (Request.write_of_small named small))]

theorem run_without_document {head : Head} (announced : Announces request script head)
    (holds : Request.length request.thingName ≤ buffer.length)
    (small : buffer.length < head.contentLength + 1) :
    (run (m := StateM Script) request buffer script).1.1 =
      .error (.bufferTooSmall buffer.length (head.contentLength + 1)) := by
  have wrote := Request.write_of_fits named holds
  obtain ⟨bytes, failAtEnd, peer, found⟩ := announces_iff.mp announced
  obtain ⟨chunks, route, rfl⟩ := respond_of_peer? peer
  obtain ⟨opened, started, unread, -⟩ := start_delivers request.endpoint wrote route
  obtain ⟨scanned, -, -, read⟩ := readHead_unread unread
  rw [found] at read
  have size := (documentSize_of_headOf found).2
  have length := (Request.take_of_write wrote).2
  rw [← size, ← length] at small
  have refused := receiveDocument_refused (c := ⟨script.streams.length⟩) small scanned
  rw [run_of_undelivered started read (Prod.ext refused rfl), length, size]

end Runs

/-- Either the name is refused, or one of the two things to make room for does not fit, or there is
room for both. -/
theorem capacity_cases (request : DiscoveryRequest) (script : Script) (buffer : Bytes) :
    (∃ defect, Request.checkName request.thingName = .error defect) ∨
    Request.checkName request.thingName = .ok () ∧
      (buffer.length < Request.length request.thingName ∨
        Request.length request.thingName ≤ buffer.length ∧
          (∃ head, Announces request script head ∧ buffer.length < head.contentLength + 1) ∨
        Roomy request script buffer.length) := by
  cases named : Request.checkName request.thingName with
  | error defect => exact .inl ⟨defect, rfl⟩
  | ok _ =>
    refine .inr ⟨rfl, ?_⟩
    by_cases holds : Request.length request.thingName ≤ buffer.length
    · by_cases small : ∃ head, Announces request script head ∧
          buffer.length < head.contentLength + 1
      · exact .inr (.inl ⟨holds, small⟩)
      · refine .inr (.inr ⟨holds, fun head announced => ?_⟩)
        exact Nat.le_of_not_lt fun short => small ⟨head, announced, short⟩
    · exact .inl (Nat.lt_of_not_le holds)

theorem run_misnamed {defect : RequestDefect}
    (misnamed : Request.checkName request.thingName = .error defect) (buffer : Bytes)
    (script : Script) : run (m := StateM Script) request buffer script =
      ((.error (.invalidRequest defect), buffer), script) := by
  have refused : Request.write buffer request.thingName =
      (.error (.invalidRequest defect), buffer) := by simp only [Request.write, misnamed]
  exact run_of_stopped (start_rejected refused)

/-- A buffer that serves is as good as a larger one. -/
theorem run_of_larger (room : buffer.length ≤ larger.length)
    (sufficed : Failure.Sufficed (run (m := StateM Script) request buffer script).1.1) :
    (run (m := StateM Script) request larger script).1.1 =
        (run (m := StateM Script) request buffer script).1.1 ∧
      (run (m := StateM Script) request larger script).2.journal =
        (run (m := StateM Script) request buffer script).2.journal := by
  obtain ⟨defect, misnamed⟩ | ⟨named, small | ⟨holds, head, announced, small⟩ | roomy⟩ :=
    capacity_cases request script buffer
  · rw [run_misnamed misnamed, run_misnamed misnamed]
    exact ⟨rfl, rfl⟩
  · exact absurd (run_without_request named small) (sufficed _ _)
  · exact absurd (run_without_document named announced holds small) (sufficed _ _)
  · refine (run_of_roomy named roomy ⟨Nat.le_trans roomy.holdsRequest room, ?_⟩).2
    intro head announced
    exact Nat.le_trans (roomy.holdsDocument head announced) room

theorem required_of_run {capacity required : Nat}
    (small : (run (m := StateM Script) request buffer script).1.1 =
      .error (.bufferTooSmall capacity required)) :
    capacity = buffer.length ∧ capacity < required ∧
      (buffer.length < Request.length request.thingName ∧
          required = Request.length request.thingName ∨
        Request.length request.thingName ≤ buffer.length ∧
          ∃ head, Announces request script head ∧ required = head.contentLength + 1) := by
  obtain ⟨defect, misnamed⟩ | ⟨named, short | ⟨holds, head, announced, short⟩ | roomy⟩ :=
    capacity_cases request script buffer
  · rw [run_misnamed misnamed] at small
    simp at small
  · rw [run_without_request named short] at small
    simp only [Except.error.injEq, Failure.bufferTooSmall.injEq] at small
    obtain ⟨rfl, rfl⟩ := small
    exact ⟨rfl, short, .inl ⟨short, rfl⟩⟩
  · rw [run_without_document named announced holds short] at small
    simp only [Except.error.injEq, Failure.bufferTooSmall.injEq] at small
    obtain ⟨rfl, rfl⟩ := small
    exact ⟨rfl, short, .inr ⟨holds, head, announced, rfl⟩⟩
  · exact absurd small ((run_of_roomy named roomy roomy).1 capacity required)

/-- An attempt whose buffer was too small, and the next one with a buffer of the size asked for. -/
structure Regrown (request : DiscoveryRequest) (attempt next : Bytes × Script) : Prop where
  small : (run (m := StateM Script) request attempt.1 attempt.2).1.1 =
    .error (.bufferTooSmall attempt.1.length next.1.length)
  carriesOn : next.2 = (run (m := StateM Script) request attempt.1 attempt.2).2

theorem Regrown.holdsRequest {attempt next : Bytes × Script}
    (regrown : Regrown request attempt next) :
    Request.length request.thingName ≤ next.1.length := by
  obtain ⟨-, less, ⟨-, same⟩ | ⟨holds, -⟩⟩ := required_of_run regrown.small
  · exact Nat.le_of_eq same.symm
  · exact Nat.le_trans holds (Nat.le_of_lt less)

theorem Regrown.routes {attempt next : Bytes × Script} (regrown : Regrown request attempt next) :
    next.2.routes = attempt.2.routes := by
  rw [regrown.carriesOn]
  exact routes_run request attempt.1 attempt.2

/-- Two buffers of the size asked for are enough. -/
theorem sufficed_of_regrown {first second third : Bytes × Script}
    (grown : Regrown request first second) (again : Regrown request second third) :
    Failure.Sufficed (run (m := StateM Script) request third.1 third.2).1.1 := by
  intro capacity required small
  obtain ⟨-, -, ⟨short, -⟩ | ⟨-, head, announced, size⟩⟩ := required_of_run again.small
  · exact absurd grown.holdsRequest (Nat.not_le_of_lt short)
  obtain ⟨rfl, less, ⟨short, -⟩ | ⟨-, head', announced', rfl⟩⟩ := required_of_run small
  · exact absurd again.holdsRequest (Nat.not_le_of_lt short)
  -- What the third attempt asks for is what it was given.
  rw [announced.unique announced' again.routes, ← size] at less
  exact Nat.lt_irrefl _ less

/-- The size of the buffer matters only as far as request and document have to fit in: a buffer that
serves may be replaced by any larger one. One that does not is told its own size and a larger one,
that of the request if it cannot hold it and else that of the announced document; and who gives what
is asked for is asked twice at most. -/
theorem run_capacity (request : DiscoveryRequest) (script : Script) (buffer : Bytes) :
    let ended := run (m := StateM Script) request buffer script
    (∀ larger : Bytes, buffer.length ≤ larger.length →
      (∀ capacity required, ended.1.1 ≠ .error (.bufferTooSmall capacity required)) →
        (run (m := StateM Script) request larger script).1.1 = ended.1.1 ∧
          (run (m := StateM Script) request larger script).2.journal = ended.2.journal) ∧
      (∀ capacity required, ended.1.1 = .error (.bufferTooSmall capacity required) →
        capacity = buffer.length ∧ capacity < required ∧
          (required = Request.length request.thingName ↔
            buffer.length < Request.length request.thingName) ∧
          (required = Request.length request.thingName ∨
            ∃ head, Announces request script head ∧ required = head.contentLength + 1)) ∧
      ∀ second third, Regrown request (buffer, script) second → Regrown request second third →
        ∀ capacity required, (run (m := StateM Script) request third.1 third.2).1.1 ≠
          .error (.bufferTooSmall capacity required) := by
  intro ended
  refine ⟨fun larger room sufficed => run_of_larger room sufficed, ?_,
    fun second third grown again => sufficed_of_regrown grown again⟩
  intro capacity required small
  obtain ⟨rfl, less, ⟨short, rfl⟩ | ⟨holds, document⟩⟩ := required_of_run small
  · exact ⟨rfl, less, ⟨fun _ => short, fun _ => rfl⟩, .inl rfl⟩
  · refine ⟨rfl, less, ⟨fun same => ?_, fun short => ?_⟩, .inr document⟩
    · rwa [same] at less
    · exact absurd holds (Nat.not_le_of_lt short)

/-- The request takes 45 bytes, and a body of 60 bytes is announced and not sent. -/
theorem run_capacity_grown_twice :
    let script : Script := { routes := [⟨"gg", 8443,
      .respond [.ofString "content-length: 60\r\n\r\n"] false⟩] }
    let request : DiscoveryRequest := { host := "gg", port := 8443, thingName := "t" }
    let first := run (m := StateM Script) request [] script
    let second := run (m := StateM Script) request (List.replicate 45 0) first.2
    let third := run (m := StateM Script) request (List.replicate 61 0) second.2
    first.1.1 = .error (.bufferTooSmall 0 45) ∧ second.1.1 = .error (.bufferTooSmall 45 61) ∧
      (∀ capacity required, third.1.1 ≠ .error (.bufferTooSmall capacity required)) ∧
      (run (m := StateM Script) request (List.replicate 99 1) second.2).1.1 = third.1.1 := by
  intro script request first second third
  have named : Request.checkName "t" = .ok () := rfl
  have length : Request.length request.thingName = 45 := by decide +kernel
  have announced : Announces request first.2 ⟨60⟩ := by
    refine announces_iff.mpr ⟨.ofString "content-length: 60\r\n\r\n", false, ?_, rfl⟩
    rw [peer?, routeTo?, routes_run]
    decide +kernel
  have small : first.1.1 = .error (.bufferTooSmall 0 45) := by
    have small : first.1.1 = .error (.bufferTooSmall 0 (Request.length request.thingName)) :=
      @run_without_request script request [] named (by decide +kernel)
    rwa [length] at small
  have smaller : second.1.1 = .error (.bufferTooSmall 45 61) :=
    @run_without_document first.2 request (List.replicate 45 0) named ⟨60⟩ announced
      (by decide +kernel) (by decide +kernel)
  have served := (run_capacity request script []).2.2 (List.replicate 45 0, first.2)
    (List.replicate 61 0, second.2) ⟨small, rfl⟩ ⟨smaller, rfl⟩
  refine ⟨small, smaller, served, ?_⟩
  exact ((run_capacity request second.2 (List.replicate 61 0)).1 (List.replicate 99 1)
    (by decide +kernel) served).1

end Discovery
end CoreLocator
