import CoreLocator.Proofs.Discovery.Stages
import CoreLocator.Proofs.Selection

/-! What a document says of the core is what stands at four places of it, whatever kind of value
that is: a string counts by its contents, anything else by its text, and only what is not there at
all is missing. -/
namespace CoreLocator

namespace Selection
open Network

variable {σ κ : Type} [Network (StateM σ) κ] [Log (StateM σ)]

theorem usable_of_probe {ca : Bytes} {tried : Nat} {candidates : List Candidate} {before : σ}
    {s : Selected} (taken : (probe (m := StateM σ) ca tried candidates before).1 = .ok s) :
    ∃ c ∈ candidates, c.usable? = some s := by
  induction candidates generalizing tried before with
  | nil => cases taken
  | cons c rest ih =>
    have later {tried : Nat} {next : σ}
        (taken : (probe (m := StateM σ) ca tried rest next).1 = .ok s) :
        ∃ d ∈ c :: rest, d.usable? = some s := by
      obtain ⟨d, member, usable⟩ := ih taken
      exact ⟨d, List.mem_cons_of_mem c member, usable⟩
    rw [probe] at taken
    split at taken
    · next valid =>
      cases worth : c.selected? with
      | none =>
        rw [worth] at taken
        exact later taken
      | some selected =>
        rw [worth] at taken
        dsimp only at taken
        rw [bind_apply] at taken
        generalize Network.connect (m := StateM σ) _ before = answer at taken
        obtain ⟨fault | connection, after⟩ := answer
        · exact later taken
        · obtain rfl := Except.ok.inj taken
          refine ⟨c, List.mem_cons_self, ?_⟩
          rw [Candidate.usable?, if_pos valid, worth]
    · exact later taken

/-- What is chosen is an entry of the document, by number it is the entry of that number, and
otherwise it has a host to connect to. -/
theorem entry_of_choose {selection : Selection} {document ca : Bytes} {before after : σ}
    {s : Selected}
    (chosen : selection.choose (m := StateM σ) document ca before = (.ok s, after)) :
    Candidate.at? document s.index = some ⟨s.index, s.host, some s.port⟩ ∧
      (∀ n, selection = .manual n → s.index = n) ∧
      (selection = .automatic → s.host ≠ "" ∧ s.host ≠ "127.0.0.1") := by
  cases selection with
  | automatic =>
    obtain ⟨c, member, usable⟩ := usable_of_probe (congrArg Prod.fst chosen)
    obtain ⟨first, rest, split⟩ := List.append_of_mem member
    have entry := Candidate.at?_of_split split
    obtain ⟨index, host, port⟩ := c
    obtain rfl := Candidate.index_of_at? entry
    rw [Candidate.usable?_eq] at usable
    obtain ⟨endpoint, asked, rfl⟩ := Option.map_eq_some_iff.mp usable
    obtain ⟨same, known⟩ := Candidate.endpoint?_eq_some asked
    refine ⟨?_, nofun, fun _ => ?_⟩
    · rw [entry, same]
      exact congrArg some (congrArg (Candidate.mk first.length host) known)
    · rw [same]
      exact Candidate.suitable_of_endpoint? asked
  | manual index =>
    dsimp only [choose] at chosen
    cases found : Candidate.at? document index with
    | none =>
      rw [found] at chosen
      cases chosen
    | some c =>
      rw [found] at chosen
      obtain rfl := Candidate.index_of_at? found
      obtain ⟨index, host, port⟩ := c
      cases port with
      | none => cases chosen
      | some port =>
        obtain rfl := Except.ok.inj (congrArg Prod.fst chosen)
        refine ⟨found, fun n same => ?_, nofun⟩
        exact Selection.manual.inj same

end Selection

namespace Discovery
open Network Json

variable {source : Source} {index : Nat}

theorem require_certificate (source : Source) :
    Document.require source.text Document.certificatePath =
      match source.content? Document.certificateSteps with
      | none => .error (.fieldNotFound Document.certificatePath)
      | some content => .ok content := by
  have found := Document.search?_steps source Document.parse?_certificatePath
  cases stands : source.content? Document.certificateSteps with
  | none => simp only [Document.require, found, stands]
  | some content => simp only [Document.require, found, stands]

theorem at?_source (source : Source) (fits : index < Decimal.wordLimit) :
    Candidate.at? source.text index =
      (source.content? (Document.hostSteps index)).map fun host =>
        { index, host := Utf8.text host,
          port := (source.content? (Document.portSteps index)).bind Candidate.port? } := by
  rw [Candidate.at?, Document.search?_steps source (Document.parse?_hostPath fits),
    Document.search?_steps source (Document.parse?_portPath fits)]
  cases source.content? (Document.hostSteps index) <;> rfl

theorem ofString_content? (source : Source) (path : Path) :
    ((source.content? path).map Utf8.text).map Bytes.ofString = source.content? path := by
  cases found : source.content? path with
  | none => rfl
  | some content => exact congrArg some (Utf8.ofString_text (isText_of_content? found))

/-- What a core says is what stands at its places in the document. -/
structure Taken (source : Source) (selection : Selection) (core : CoreAddress) : Prop where
  certificate : ∃ raw pem, source.content? Document.certificateSteps = some raw ∧
    Certificate.decode raw = .ok pem ∧ core.certificate = some pem
  address : ∃ index host port, (∀ n, selection = .manual n → index = n) ∧
    source.content? (Document.hostSteps index) = some host ∧ Bytes.ofString core.host = host ∧
    source.content? (Document.portSteps index) = some port ∧
    Candidate.port? port = some core.port
  groupId : core.groupId.map Bytes.ofString = source.content? Document.groupIdSteps
  coreArn : core.coreArn.map Bytes.ofString = source.content? Document.coreArnSteps

theorem taken_coreOf {certificate ca : Bytes} {selection : Selection} {script after : Script}
    {s : Selected} (certifies : Certifies source.text certificate)
    (chosen : selection.choose (m := StateM Script) source.text ca script = (.ok s, after)) :
    Taken source selection (coreOf source.text certificate s) := by
  obtain ⟨entry, named, -⟩ := Selection.entry_of_choose chosen
  constructor
  · obtain ⟨-, raw, found, decoded⟩ := certifies
    refine ⟨raw, certificate, ?_, decoded, rfl⟩
    rw [require_certificate] at found
    split at found
    · cases found
    · next content there => rw [there, Except.ok.inj found]
  · rw [at?_source source (Candidate.fits_of_at? entry)] at entry
    obtain ⟨host, found, same⟩ := Option.map_eq_some_iff.mp entry
    injection same with _ text port
    obtain ⟨number, there, usable⟩ := Option.bind_eq_some_iff.mp port
    refine ⟨s.index, host, number, named, found, ?_, there, usable⟩
    rw [coreOf, ← text]
    exact Utf8.ofString_text (isText_of_content? found)
  · rw [coreOf, Document.search?_steps source Document.parse?_groupIdPath]
    exact ofString_content? source Document.groupIdSteps
  · rw [coreOf, Document.search?_steps source Document.parse?_coreArnPath]
    exact ofString_content? source Document.coreArnSteps

/-- In every document a certificate or an entry is there if any value stands at its place, and a
core that is found is made of the contents of what stands at the places. -/
theorem interpret_values {document : Bytes} (valid : Document.validate document = .ok ())
    (selection : Selection) (script : Script) : ∃ source : Source, source.text = document ∧
      (Document.require document Document.certificatePath =
        match source.content? Document.certificateSteps with
        | none => .error (.fieldNotFound Document.certificatePath)
        | some content => .ok content) ∧
      (∀ index : UInt64, Candidate.at? document index.toNat =
        (source.content? (Document.hostSteps index.toNat)).map fun host =>
          { index := index.toNat, host := Utf8.text host,
            port := (source.content? (Document.portSteps index.toNat)).bind Candidate.port? }) ∧
      ∀ core after, interpret (m := StateM Script) document selection script = (.ok core, after) →
        Taken source selection core := by
  obtain ⟨source, rfl⟩ := Document.validate_iff.mp valid
  refine ⟨source, rfl, require_certificate source, ?_, ?_⟩
  · intro index
    exact at?_source source (UInt64.toNat_lt index)
  · intro core after succeeded
    obtain ⟨certificate, certifies⟩ | ⟨failure, rejected⟩ := interpret_cases source.text selection
    · rw [interpret_of_certifies certifies] at succeeded
      obtain ⟨same, rfl⟩ := Prod.mk.inj succeeded
      cases chosen : (selection.choose (m := StateM Script) source.text certificate script).1 with
      | error failure =>
        rw [chosen] at same
        cases same
      | ok s =>
        rw [chosen] at same
        obtain rfl := Except.ok.inj same
        exact taken_coreOf certifies (Prod.ext chosen rfl)
    · rw [rejected] at succeeded
      cases succeeded

def isString : Spelling → Bool
  | .text _ => true
  | _ => false

def only (value : Spelling) : Spelling := .list [] [⟨[], value, []⟩]

/-- A document with no string at any of the places. -/
def stringless : Source where
  before := []
  value := .object [] [.plain "GGGroups" <| only <| .object []
    [.plain "GGGroupId" (.object [] []), .plain "CAs" (only .null),
      .plain "Cores" <| only <| .object []
        [.plain "thingArn" (.bool true),
          .plain "Connectivity" <| only <| .object []
            [.plain "HostAddress" (.number ⟨false, 5, none, none⟩),
              .plain "PortNumber" (.number ⟨false, 1, none, none⟩)]]]]
  after := []

theorem content?_stringless :
    stringless.content? Document.certificateSteps = some (.ofString "null") ∧
      stringless.content? (Document.hostSteps 0) = some (.ofString "5") ∧
      stringless.content? (Document.portSteps 0) = some (.ofString "1") ∧
      stringless.content? Document.groupIdSteps = some (.ofString "\x7b\x7d") ∧
      stringless.content? Document.coreArnSteps = some (.ofString "true") := by
  decide +kernel

theorem valid_stringless : Document.validate stringless.text = .ok () :=
  Document.validate_iff.mpr ⟨stringless, rfl⟩

theorem interpret_stringless : ∃ core after,
    interpret (m := StateM Script) stringless.text (.manual 0) {} = (.ok core, after) ∧
      core.groupId.isSome ∧ core.coreArn.isSome := by
  obtain ⟨certificate, host, port, groupId, coreArn⟩ := content?_stringless
  have decoded : Certificate.decode (.ofString "null") = .ok (.ofString "null") := by
    decide +kernel
  have certifies : Certifies stringless.text (.ofString "null") := by
    refine ⟨valid_stringless, .ofString "null", ?_, decoded⟩
    rw [require_certificate, certificate]
  have entry : (Candidate.at? stringless.text 0).bind Candidate.selected? =
      some ⟨0, Utf8.text (.ofString "5"), 1⟩ := by
    have usable : Candidate.port? (.ofString "1") = some 1 := by decide +kernel
    rw [at?_source stringless (by decide), host, port, Option.bind_some, usable]
    rfl
  rw [interpret_of_certifies certifies]
  dsimp only [Selection.choose]
  rw [entry]
  refine ⟨_, _, rfl, ?_, ?_⟩
  · rw [coreOf, Document.search?_steps stringless Document.parse?_groupIdPath, groupId]
    rfl
  · rw [coreOf, Document.search?_steps stringless Document.parse?_coreArnPath, coreArn]
    rfl

/-- What stands at a path hangs on the text alone. -/
theorem content?_of_text {other : Source} {path : String} {steps : Path}
    (same : other.text = source.text) (parsed : Path.parse? (.ofString path) = some steps) :
    other.content? steps = source.content? steps := by
  rw [← Document.search?_steps other parsed, ← Document.search?_steps source parsed, same]

/-- The certificate is the text `null`, and the group is called by the text of an object. -/
theorem interpret_values_stringless :
    Document.validate stringless.text = .ok () ∧ ∃ core after,
      interpret (m := StateM Script) stringless.text (.manual 0) {} = (.ok core, after) ∧
        core.certificate = some (.ofString "null") ∧
        core.groupId.map Bytes.ofString = some (.ofString "\x7b\x7d") := by
  obtain ⟨core, after, succeeded, -, -⟩ := interpret_stringless
  obtain ⟨source, text, -, -, all⟩ := interpret_values valid_stringless (.manual 0) {}
  obtain ⟨⟨raw, pem, stands, decoded, certified⟩, -, groupId, -⟩ := all core after succeeded
  obtain ⟨certificate, -, -, group, -⟩ := content?_stringless
  refine ⟨valid_stringless, core, after, succeeded, ?_, ?_⟩
  · rw [content?_of_text text Document.parse?_certificatePath, certificate] at stands
    obtain rfl := Option.some.inj stands
    rw [certified, ← Except.ok.inj decoded]
    decide +kernel
  · rw [groupId, content?_of_text text Document.parse?_groupIdPath, group]

/-- It is not true that a core is made only of strings. -/
theorem values_not_strings : ∃ core after,
    interpret (m := StateM Script) stringless.text (.manual 0) {} = (.ok core, after) ∧
      core.groupId.isSome ∧ core.coreArn.isSome ∧
      ∀ path ∈ [Document.certificateSteps, Document.hostSteps 0, Document.groupIdSteps,
          Document.coreArnSteps],
        (stringless.reach? path).map (fun place => isString place.value) = some false := by
  obtain ⟨core, after, succeeded, groupId, coreArn⟩ := interpret_stringless
  refine ⟨core, after, succeeded, groupId, coreArn, ?_⟩
  decide +kernel

end Discovery
end CoreLocator
