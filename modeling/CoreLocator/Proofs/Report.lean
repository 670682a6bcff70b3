import CoreLocator.Report
import CoreLocator.Proofs.Json.Denotation
import CoreLocator.Proofs.Utf8

/-! The core that was found as it is printed in JSON. Whoever reads the text as JSON gets one object
with the fields of the core, however its strings had to be escaped, so no two cores are printed
alike. -/
namespace CoreLocator.Report

open Json (Denotes Tree)

variable {core other : CoreAddress}

theorem tree_toJson (core : CoreAddress) : (toJson core).tree =
    .object
      [("certificate", .ofText? core.certificatePem), ("core_thing_arn", .ofText? core.coreArn),
        ("group_id", .ofText? core.groupId), ("host", .ofText core.host),
        ("port", .number ⟨false, core.port.toNat, none, none⟩)] := by
  simp only [toJson, Json.Value.tree, Json.Value.memberTrees, Json.Value.tree_ofOption]
  rfl

theorem certificate_inj (isText : ∀ pem ∈ core.certificate, Utf8.IsText pem)
    (isText' : ∀ pem ∈ other.certificate, Utf8.IsText pem)
    (same : core.certificatePem = other.certificatePem) : core.certificate = other.certificate := by
  have read {core : CoreAddress} (isText : ∀ pem ∈ core.certificate, Utf8.IsText pem) :
      core.certificatePem.map Bytes.ofString = core.certificate := by
    rw [CoreAddress.certificatePem]
    cases kept : core.certificate with
    | none => rfl
    | some pem =>
      obtain ⟨text, decoded, written⟩ := (isText pem kept).exists_text
      rw [Option.bind_some, decoded, Option.map_some, written]
  rw [← read isText, same, read isText']

/-- What is printed as JSON denotes one object with these five members and nothing else, whatever
characters are in the strings. The values are the fields of the core; null stands for one that is
not there, and for a certificate that is no text. So cores whose certificates are texts are printed
alike only if they are equal. -/
theorem render_json (core : CoreAddress) :
    (∃ certificate : Option String,
      (∀ pem, certificate = some pem ↔ core.certificate = some (.ofString pem)) ∧
      ∀ tree, Denotes (.ofString (render .json core)) tree ↔
        tree = .object
          [("certificate", .ofText? certificate), ("core_thing_arn", .ofText? core.coreArn),
            ("group_id", .ofText? core.groupId), ("host", .ofText core.host),
            ("port", .number ⟨false, core.port.toNat, none, none⟩)]) ∧
    ∀ other : CoreAddress, (∀ pem ∈ core.certificate, Utf8.IsText pem) →
      (∀ pem ∈ other.certificate, Utf8.IsText pem) →
      render .json core = render .json other → core = other := by
  constructor
  · refine ⟨core.certificatePem, ?_, ?_⟩
    · intro pem
      rw [CoreAddress.certificatePem, Option.bind_eq_some_iff]
      constructor
      · rintro ⟨bytes, kept, read⟩
        rw [kept, Utf8.text?_eq_some.mp read]
      · intro kept
        exact ⟨_, kept, Utf8.text?_eq_some.mpr rfl⟩
    · intro tree
      rw [← tree_toJson]
      exact Json.denotes_pretty (toJson core)
  · intro other isText isText' same
    have denotes : Denotes (.ofString (render .json core)) (toJson core).tree :=
      (Json.denotes_pretty (toJson core)).mpr rfl
    rw [same] at denotes
    have trees := (Json.denotes_pretty (toJson other)).mp denotes
    rw [tree_toJson, tree_toJson] at trees
    simp only [Tree.object.injEq, List.cons.injEq, Prod.mk.injEq, Tree.number.injEq,
      Json.Numeral.mk.injEq, true_and, and_true] at trees
    obtain ⟨certificate, arn, group, host, port⟩ := trees
    have certificates := certificate_inj isText isText' (Tree.ofText?_inj certificate)
    have groups := Tree.ofText?_inj group
    have arns := Tree.ofText?_inj arn
    have hosts := Tree.ofText_inj host
    have ports := UInt16.toNat_inj.mp port
    cases core
    cases other
    exact (CoreAddress.mk.injEq ..).mpr ⟨hosts, ports, certificates, groups, arns⟩

/-- A group that is called null is not taken for one that is not known. -/
theorem render_json_null :
    let core : CoreAddress := ⟨"a\"b\\", 8883, some (.ofString "é\n"), some "null", none⟩
    Denotes (.ofString (render .json core))
        (.object
          [("certificate", .ofText "é\n"), ("core_thing_arn", .null), ("group_id", .ofText "null"),
            ("host", .ofText "a\"b\\"), ("port", .number ⟨false, 8883, none, none⟩)]) ∧
      render .json core ≠ render .json { core with groupId := none } := by
  intro core
  obtain ⟨⟨certificate, read, printed⟩, apart⟩ := render_json core
  constructor
  · obtain rfl := (read "é\n").mpr rfl
    exact (printed _).mpr rfl
  · intro same
    have isText : ∀ pem ∈ core.certificate, Utf8.IsText pem := by
      intro pem kept
      obtain rfl := Option.some.inj kept
      exact ⟨"é\n".toList, rfl⟩
    have equal := apart { core with groupId := none } isText isText same
    exact absurd (congrArg CoreAddress.groupId equal) (Option.some_ne_none _)

end CoreLocator.Report
