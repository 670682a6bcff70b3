import CoreLocator.Report
import CoreLocator.Retry
import CoreLocator.Proofs.Certificate.Decoding
import CoreLocator.Proofs.Discovery.Admission
import CoreLocator.Proofs.Discovery.Interpretation

/-! What whoever asks for a core can do with the one that is found, whatever the document and the
network say: its certificate can be shown and kept as a text, and it has an address to connect
to. -/
namespace CoreLocator
open Network

theorem Candidate.port_of_at? {document : Bytes} {index : Nat} {host : String} {port : UInt16}
    (entry : at? document index = some ⟨index, host, some port⟩) : 1 ≤ port.toNat := by
  obtain ⟨found, -, same⟩ := Option.bind_eq_some_iff.mp entry
  injection Option.some.inj same with _ _ known
  obtain ⟨text, -, usable⟩ := Option.bind_eq_some_iff.mp known
  obtain ⟨same, least, -⟩ := port?_eq_some.mp usable
  exact same ▸ least

namespace Discovery

/-- What can be relied on of a core that a document describes. -/
structure Presentable (document : Bytes) (selection : Selection) (core : CoreAddress) : Prop where
  certificate : ∃ raw pem, Document.require document Document.certificatePath = .ok raw ∧
    core.certificate = some pem ∧ pem ≠ [] ∧ Utf8.IsText pem ∧ pem.length ≤ raw.length ∧
    ¬Certificate.escapedNewline <:+: pem
  text : ∃ pem, core.certificatePem = some pem ∧ core.certificate = some (.ofString pem) ∧
    Report.certificateFile? core = some (pem ++ "\n")
  port : 1 ≤ core.port.toNat ∧ core.port.toNat ≤ 65535
  host : selection = .automatic → core.host ≠ "" ∧ core.host ≠ "127.0.0.1"

theorem isText_of_require {document raw : Bytes} (valid : Document.validate document = .ok ())
    (found : Document.require document Document.certificatePath = .ok raw) : Utf8.IsText raw := by
  obtain ⟨source, rfl⟩ := Document.validate_iff.mp valid
  rw [require_certificate] at found
  split at found
  · contradiction
  · next content stands =>
    rw [← Except.ok.inj found]
    exact Json.isText_of_content? stands

section Connectors
variable {σ κ : Type} [Network (StateM σ) κ] [Log (StateM σ)]
variable {document : Bytes} {selection : Selection} {core : CoreAddress} {s : σ}

/-- The certificate is checked by what it is decoded from, the address by the entry it is in. -/
theorem presentable_of_interpret
    (found : (interpret (m := StateM σ) document selection s).1 = .ok core) :
    Presentable document selection core := by
  obtain ⟨pem, certifies⟩ | ⟨failure, rejected⟩ := interpret_cases document selection
  · rw [interpret_of_certifies certifies] at found
    dsimp only at found
    generalize chosen : selection.choose (m := StateM σ) document pem s = choice at found
    obtain ⟨failure | selected, after⟩ := choice
    · contradiction
    obtain rfl := Except.ok.inj found
    -- Of the network no more is needed than that it chose among the document's entries.
    obtain ⟨entry, -, suitable⟩ := Selection.entry_of_choose chosen
    obtain ⟨valid, raw, there, decoded⟩ := certifies
    obtain ⟨solid, isText, shorter, clean⟩ :=
      Certificate.decoded_text (isText_of_require valid there) decoded
    constructor
    · exact ⟨raw, pem, there, rfl, solid, isText, shorter, clean⟩
    · obtain ⟨text, read, same⟩ := isText.exists_text
      have known : (coreOf document pem selected).certificatePem = some text := read
      refine ⟨text, known, congrArg some same.symm, ?_⟩
      rw [Report.certificateFile?, known, Option.map_some]
    · constructor
      · exact Candidate.port_of_at? entry
      · exact Nat.le_of_lt_succ selected.port.toNat_lt
    · exact suitable
  · rw [rejected] at found
    contradiction

theorem interpreted_of_run {request : DiscoveryRequest} {buffer : Bytes}
    (found : (run (m := StateM σ) request buffer s).1.1 = .ok core) :
    ∃ document before,
      (interpret (m := StateM σ) document request.selection before).1 = .ok core := by
  have ends := run_outcome (κ := κ) request buffer s
  dsimp only at ends
  rw [found] at ends
  rcases ends with ⟨failure, same, -⟩ | ⟨failure, link, before, same, -⟩ |
    ⟨failure, link, written, head, before, same, -⟩ | ⟨document, before, same⟩
  · contradiction
  · contradiction
  · contradiction
  · exact ⟨document, before, same.symm⟩

theorem interpreted_of_discover {session : Session} {request : DiscoveryRequest}
    (found : (session.discover (m := StateM σ) request s).1.1 = .ok core) :
    ∃ document before,
      (interpret (m := StateM σ) document request.selection before).1 = .ok core :=
  interpreted_of_run found

variable [Pause (StateM σ)]

/-- However many attempts are made, a core comes from one of them. -/
theorem interpreted_of_discoverFrom {settings : Settings} {session : Session} {attempt more : Nat}
    (found : (Retry.discoverFrom (m := StateM σ) settings session attempt more s).1 = .ok core) :
    ∃ document before,
      (interpret (m := StateM σ) document settings.selection before).1 = .ok core := by
  induction more generalizing session attempt s with
  | zero =>
    have one := @interpreted_of_discover σ κ _ _ core s session settings.request
    rw [Retry.discoverFrom, bind_apply] at found
    generalize session.discover (m := StateM σ) settings.request s = answer at one found
    obtain ⟨⟨failure | other, next⟩, after⟩ := answer
    · contradiction
    · exact one (congrArg Except.ok (Except.ok.inj found))
  | succ more ih =>
    have one := @interpreted_of_discover σ κ _ _ core s session settings.request
    rw [Retry.discoverFrom, bind_apply] at found
    generalize session.discover (m := StateM σ) settings.request s = answer at one found
    obtain ⟨⟨failure | other, next⟩, after⟩ := answer
    · dsimp only at found
      split at found
      · exact ih found
      · contradiction
    · exact one (congrArg Except.ok (Except.ok.inj found))

/-- On every network, whatever a document makes a discovery find can be relied on, and what all
attempts together find comes from such a document, so that its certificate can be kept. -/
theorem found_presentable :
    (∀ document selection (s : σ) core,
      (interpret (m := StateM σ) document selection s).1 = .ok core →
        Presentable document selection core) ∧
    ∀ settings (s : σ) core, (Retry.discover (m := StateM σ) settings s).1 = .ok core →
      (Report.certificateFile? core).isSome ∧
        ∃ document, Presentable document settings.selection core := by
  constructor
  · intro document selection s core found
    exact presentable_of_interpret found
  · intro settings s core found
    obtain ⟨document, before, interpreted⟩ := interpreted_of_discoverFrom found
    have presentable := presentable_of_interpret interpreted
    obtain ⟨pem, -, -, file⟩ := presentable.text
    constructor
    · rw [file]
      rfl
    · exact ⟨document, presentable⟩

end Connectors

open Json in
def blankHost : Source where
  before := []
  value := .object [] [.plain "GGGroups" <| only <| .object []
    [.plain "CAs" (only (.text [.plain 'é' (by decide), .letter .lineFeed])),
      .plain "Cores" <| only <| .object [] [.plain "Connectivity" <| .list []
        [⟨[], .object [] [.plain "HostAddress" (.text []),
            .plain "PortNumber" (.number ⟨false, 1, none, none⟩)], []⟩,
          ⟨[], .object [] [.plain "HostAddress" (.number ⟨false, 5, none, none⟩),
            .plain "PortNumber" (.number ⟨false, 1, none, none⟩)], []⟩]]]]
  after := []

/-- The second host is found, and a certificate of two bytes for one character. -/
theorem found_presentable_blank_host :
    let settings : Settings := { endpoint := "gg", thingName := "t", bufferSize := 160 }
    let script : Script := { routes := [⟨"5", 1, .respond [] false⟩,
      ⟨"gg", 8443, .respond [.ofString "content-length: 127\r\n\r\n", blankHost.text] false⟩] }
    let core : CoreAddress := ⟨"5", 1, some [0xC3, 0xA9], none, none⟩
    ((interpret (m := StateM Script) blankHost.text .automatic script).1 = .ok core ∧
        Presentable blankHost.text .automatic core) ∧
      (Retry.discover (m := StateM Script) settings script).1 = .ok core ∧
        (Report.certificateFile? core).isSome := by
  intro settings script core
  have interpreted : (interpret (m := StateM Script) blankHost.text .automatic script).1 =
      .ok core := by
    decide +kernel
  have discovered : (Retry.discover (m := StateM Script) settings script).1 = .ok core := by
    decide +kernel
  obtain ⟨every, all⟩ := found_presentable (σ := Script)
  exact ⟨⟨interpreted, every _ _ _ _ interpreted⟩, discovered, (all _ _ _ discovered).1⟩

end Discovery
end CoreLocator
