import CoreLocator.Retry
import CoreLocator.Proofs.Discovery.Capacity
import CoreLocator.Proofs.Discovery.Traffic
import CoreLocator.Proofs.Settings.Check

/-! What settings that pass their checks can rely on: their request is sent, and if a buffer turns
out too small, then for the document, which is as large as it is said to be. -/
namespace CoreLocator
open Network Network.Script Response Discovery

variable {s : Settings} {request : DiscoveryRequest} {script : Script}

theorem Discovery.connects_run {buffer written : Bytes} {length : Nat}
    (wrote : Request.write buffer request.thingName = (.ok length, written)) (script : Script) :
    ∃ later, (run (m := StateM Script) request buffer script).2.journal.connects =
      script.journal.connects ++ (request.host, request.port) :: later := by
  obtain ⟨middle, asks, ⟨failure, kept, ran⟩ |
    ⟨document, kept, outcome, interpreted, after, -, meant, ran, ends⟩⟩ := run_cases wrote script
  · exact ⟨[], ran ▸ asks.connects⟩
  · obtain ⟨_, _, certificate, probes, closed, same, probed, -⟩ :=
      interpret_probes document request.selection middle
    obtain ⟨rfl, rfl⟩ := Prod.mk.inj (meant.symm.trans same)
    have kept : after.journal.connects = interpreted.journal.connects := by
      rcases ends with rfl | ⟨record, rfl⟩ <;> rfl
    refine ⟨probes.map fun s => (s.host, s.port), ?_⟩
    rw [ran, kept, probed.connects, asks.connects, List.append_assoc, List.singleton_append]

/-- A buffer is too small for the document that the service announces. -/
structure Short (s : Settings) (script : Script) (capacity required : Nat) : Prop where
  size : capacity = s.bufferSize.toNat
  less : capacity < required
  announced : ∃ head, Announces s.request script head ∧ required = head.contentLength + 1

theorem Short.of_routes {other : Script} {capacity required : Nat}
    (short : Short s other capacity required) (routes : other.routes = script.routes) :
    Short s script capacity required := by
  obtain ⟨head, announced, same⟩ := short.announced
  exact ⟨short.size, short.less, head, announced.of_routes routes, same⟩

/-- Only a buffer that is too small makes a document too large. -/
theorem short_of_verdict {failure : Failure} {attempt required bufferSize : Nat}
    (told : Retry.discoverFrom.verdict s attempt failure = .documentTooLarge required bufferSize)
    (short : ∀ {capacity required : Nat},
      (.error failure : Except Failure CoreAddress) = .error (.bufferTooSmall capacity required) →
        Short s script capacity required) : Short s script bufferSize required := by
  cases failure with
  | bufferTooSmall capacity own =>
    obtain ⟨rfl, rfl⟩ := Retry.Failure.documentTooLarge.inj told
    have own := short rfl
    exact own.size ▸ own
  | _ => contradiction

section Accepted
variable (accepted : s.check = .ok ())
include accepted

theorem holds_request {session : Session} (size : session.capacity = s.bufferSize.toNat) :
    Request.length s.request.thingName ≤ (Session.blank session.capacity).length := by
  rw [Session.blank, List.length_replicate, size]
  exact (Settings.proper_of_check accepted).2

theorem connects_discover {session : Session} (size : session.capacity = s.bufferSize.toNat) :
    ∃ later, (session.discover (m := StateM Script) s.request script).2.journal.connects =
      script.journal.connects ++ (s.endpoint, s.port) :: later :=
  connects_run (Request.write_of_fits (Settings.proper_of_check accepted).1
    (holds_request accepted size)) script

theorem short_of_discover {session : Session} (size : session.capacity = s.bufferSize.toNat)
    {capacity required : Nat}
    (small : (session.discover (m := StateM Script) s.request script).1.1 =
      .error (.bufferTooSmall capacity required)) : Short s script capacity required := by
  obtain ⟨same, less, ⟨short, -⟩ | ⟨-, announced⟩⟩ := required_of_run small
  · exact absurd (holds_request accepted size) (Nat.not_le_of_lt short)
  · exact ⟨same.trans (List.length_replicate.trans size), less, announced⟩

theorem discover_of_short {session : Session} (size : session.capacity = s.bufferSize.toNat)
    {capacity required : Nat} (short : Short s script capacity required) :
    (session.discover (m := StateM Script) s.request script).1.1 =
      .error (.bufferTooSmall capacity required) := by
  obtain ⟨rfl, less, head, announced, rfl⟩ := short
  have length : (Session.blank session.capacity).length = s.bufferSize.toNat :=
    List.length_replicate.trans size
  rw [← length] at less ⊢
  exact run_without_document (Settings.proper_of_check accepted).1 announced
    (holds_request accepted size) less

theorem short_of_discoverFrom {session : Session} (size : session.capacity = s.bufferSize.toNat)
    {attempt more required bufferSize : Nat}
    (told : (Retry.discoverFrom (m := StateM Script) s session attempt more script).1 =
      .error (.documentTooLarge required bufferSize)) : Short s script bufferSize required := by
  induction more generalizing session attempt script with
  | zero =>
    have short := @short_of_discover s script accepted session size
    rw [Retry.discoverFrom, bind_apply] at told
    generalize session.discover (m := StateM Script) s.request script = answer at short told
    obtain ⟨⟨failure | core, next⟩, after⟩ := answer
    · exact short_of_verdict (Except.error.inj told) short
    · contradiction
  | succ more ih =>
    have short := @short_of_discover s script accepted session size
    have kept := (Session.capacity_discover session s.request script).trans size
    have routes : (session.discover (m := StateM Script) s.request script).2.routes =
        script.routes := routes_run s.request _ script
    rw [Retry.discoverFrom, bind_apply] at told
    generalize session.discover (m := StateM Script) s.request script = answer
      at short kept routes told
    obtain ⟨⟨failure | core, next⟩, after⟩ := answer
    · dsimp only at told
      split at told
      · exact (ih kept told).of_routes routes
      · exact short_of_verdict (Except.error.inj told) short
    · contradiction

/-- The first attempt tells, and no other one is made. -/
theorem discoverFrom_of_short {session : Session} (size : session.capacity = s.bufferSize.toNat)
    {capacity required : Nat} (short : Short s script capacity required) (attempt more : Nat) :
    (Retry.discoverFrom (m := StateM Script) s session attempt more script).1 =
      .error (.documentTooLarge required capacity) := by
  have small := discover_of_short accepted size short
  rw [short.size] at small ⊢
  cases more
  all_goals
    rw [Retry.discoverFrom, bind_apply]
    generalize session.discover (m := StateM Script) s.request script = answer at small ⊢
    obtain ⟨⟨outcome, next⟩, after⟩ := answer
    obtain rfl : outcome = _ := small
    rfl

end Accepted

/-- Settings are rejected for the name or the size of the buffer exactly if the request cannot be
written. If they are accepted, every discovery begins by asking the service, the request is not what
it blames, and the buffer is called too small exactly if the document that the service announces
does not fit, which takes one byte more than its length; and so it is with all attempts together. -/
theorem Settings.check_settles (s : Settings) :
    (∀ (buffer : Bytes) (failure : Failure), buffer.length = s.bufferSize.toNat →
      ((∃ defect, s.check = .error defect ∧ defect.failure? = some failure) ↔
        s.endpoint.isEmpty = false ∧ s.port ≠ 0 ∧
          (Request.write buffer s.thingName).1 = .error failure)) ∧
      (s.check = .ok () →
        (∀ (session : Session) (script : Script), session.capacity = s.bufferSize.toNat →
          let ended := session.discover (m := StateM Script) s.request script
          (∀ defect, ended.1.1 ≠ .error (.invalidRequest defect)) ∧
            (∃ later, ended.2.journal.connects =
              script.journal.connects ++ (s.endpoint, s.port) :: later) ∧
            ∀ capacity required, ended.1.1 = .error (.bufferTooSmall capacity required) ↔
              Short s script capacity required) ∧
        ∀ (script : Script) (required bufferSize : Nat),
          (Retry.discover (m := StateM Script) s script).1 =
              .error (.documentTooLarge required bufferSize) ↔
            Short s script bufferSize required) := by
  refine ⟨fun _ _ size => check_iff_write size, fun accepted => ⟨?_, ?_⟩⟩
  · intro session script size ended
    refine ⟨admitted_run (proper_of_check accepted).1 _ script, connects_discover accepted size,
      fun _ _ => ⟨?_, ?_⟩⟩
    · exact fun small => short_of_discover accepted size small
    · exact fun short => discover_of_short accepted size short
  · intro script required bufferSize
    have size : (Session.ofCapacity s.bufferSize.toNat).capacity = s.bufferSize.toNat :=
      List.length_replicate
    exact ⟨fun told => short_of_discoverFrom accepted size told,
      fun short => discoverFrom_of_short accepted size short 1 _⟩

/-- A buffer of 45 bytes just holds the request, and not the document of 60 bytes that is announced;
one of 44 bytes does not hold the request. -/
theorem Settings.check_settles_barely :
    let s : Settings := { endpoint := "gg", thingName := "t", bufferSize := 45 }
    let tight : Settings := { s with bufferSize := 44 }
    let script : Script := { routes := [⟨"gg", 8443,
      .respond [.ofString "content-length: 60\r\n\r\n"] false⟩] }
    let session := Session.ofCapacity 45
    let ended := session.discover (m := StateM Script) s.request script
    ((Session.blank 44).length = tight.bufferSize.toNat ∧ tight.endpoint.isEmpty = false ∧
        tight.port ≠ 0 ∧
        (Request.write (Session.blank 44) "t").1 = .error (.bufferTooSmall 44 45) ∧
        ∃ defect, tight.check = .error defect ∧
          defect.failure? = some (.bufferTooSmall 44 45)) ∧
      s.check = .ok () ∧ session.capacity = s.bufferSize.toNat ∧
        (∃ later, ended.2.journal.connects = ("gg", 8443) :: later) ∧
        Announces s.request script ⟨60⟩ ∧
        ended.1.1 = .error (.bufferTooSmall 45 61) ∧
        (Retry.discover (m := StateM Script) s script).1 = .error (.documentTooLarge 61 45) := by
  intro s tight script session ended
  have named : Request.checkName "t" = .ok () := rfl
  have failed : (Request.write (Session.blank 44) "t").1 = .error (.bufferTooSmall 44 45) := rfl
  have accepted : s.check = .ok () := by
    simp only [check_eq, s, named]
    rfl
  have announced : Announces s.request script ⟨60⟩ :=
    announces_iff.mpr ⟨.ofString "content-length: 60\r\n\r\n", false, by decide +kernel, rfl⟩
  have short : Short s script 45 61 := ⟨rfl, by decide, ⟨60⟩, announced, rfl⟩
  have rejected := ((check_settles tight).1 (Session.blank 44) (.bufferTooSmall 44 45) rfl).mpr
    ⟨by decide +kernel, by decide +kernel, failed⟩
  obtain ⟨every, all⟩ := (check_settles s).2 accepted
  obtain ⟨-, asked, small⟩ := every session script rfl
  exact ⟨⟨rfl, by decide +kernel, by decide +kernel, failed, rejected⟩, accepted, rfl, asked,
    announced, (small 45 61).mpr short, (all script 61 45).mpr short⟩

end CoreLocator
