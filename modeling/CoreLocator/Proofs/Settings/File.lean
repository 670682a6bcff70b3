import Mathlib.Data.List.Forall2
import Mathlib.Data.List.Nodup
import CoreLocator.Files.Directory
import CoreLocator.Settings.File
import CoreLocator.Proofs.Json.Record
import CoreLocator.Proofs.Json.Tokens

/-! A settings file is read as the settings that it was written for. So is any other JSON object
that describes them: with its members in another order, without those that hold defaults, and with
members of other names in between. -/
namespace CoreLocator.Settings

open Json (Gap Member Reads Source Spelling Tree Value codeUnits keysDenote)
open Json.Record (GivenOnce given)

variable {s : Settings} {names : List String} {members : List Member}

/-- What each member of a settings file is to spell. -/
def entries (s : Settings) : List (String × Tree) :=
  match s.toJson.tree with
  | .object entries => entries
  | _ => []

/-- The fields of these names from one record, and all others from another. -/
def merge (names : List String) (s rest : Settings) : Settings where
  endpoint := if "endpoint" ∈ names then s.endpoint else rest.endpoint
  port := if "port" ∈ names then s.port else rest.port
  thingName := if "thing_name" ∈ names then s.thingName else rest.thingName
  bufferSize := if "buffer_size" ∈ names then s.bufferSize else rest.bufferSize
  interface := if "interface" ∈ names then s.interface else rest.interface
  timeouts :=
    { connect := if "connect_timeout_ms" ∈ names then s.timeouts.connect else rest.timeouts.connect
      io := if "io_timeout_ms" ∈ names then s.timeouts.io else rest.timeouts.io }
  rootCaPath := if "root_ca_path" ∈ names then s.rootCaPath else rest.rootCaPath
  clientCertPath := if "client_cert_path" ∈ names then s.clientCertPath else rest.clientCertPath
  clientKeyPath := if "client_key_path" ∈ names then s.clientKeyPath else rest.clientKeyPath
  attempts := if "attempts" ∈ names then s.attempts else rest.attempts
  retryWait := if "retry_wait_ms" ∈ names then s.retryWait else rest.retryWait

/-- The field takes what the entry spells into the record, and leaves the others as they are. -/
structure Takes (s rest : Settings) (field : Json.Field Settings) (entry : String × Tree) :
    Prop where
  name : entry.1 = field.name
  reads : ∀ (value : Spelling) (names : List String), value.tree? = some entry.2 →
    Reads (field.read (merge names s rest)) value (merge (field.name :: names) s rest)

section Fields
variable {rest : Settings} {value : Spelling} {expected : String}

theorem takes_of {α : Type} {reader : Json.Reader α} {tree : Tree} {a : α} {name : String}
    {required : Bool} {set : α → Settings → Settings}
    (reads : ∀ value, value.tree? = some tree → Reads reader value a)
    (sets : ∀ names, set a (merge names s rest) = merge (name :: names) s rest) :
    Takes s rest (.of name required reader set) (name, tree) where
  name := rfl
  reads value names spells := by
    have read := Json.Field.reads (reads value spells) name required set (merge names s rest)
    rw [sets] at read
    exact read

theorem reads_word {n : UInt64} (spells : value.tree? = some (Value.natural n.toNat).tree) :
    Reads (.natural UInt64.size expected) value n.toNat :=
  .natural spells n.toNat_lt (Nat.le_refl _) expected

theorem reads_optional_word {n : Option UInt64}
    (spells : value.tree? = some (Value.ofOption (fun n => .natural n.toNat) n).tree) :
    Reads (.optional (.natural UInt64.size expected)) value (n.map UInt64.toNat) :=
  .ofOption spells (fun _ => Tree.noConfusion) fun _ => reads_word

theorem reads_optional_text {text : Option String}
    (spells : value.tree? = some (Value.ofOption .text text).tree) :
    Reads (.optional (.text expected)) value text := by
  have read : Reads (.optional (.text expected)) value (text.map id) :=
    .ofOption spells (fun _ => Tree.noConfusion) fun _ own => .text own expected
  rwa [Option.map_id] at read

theorem toUInt64_comp_toNat : Nat.toUInt64 ∘ UInt64.toNat = id :=
  funext fun _ => UInt64.ofNat_toNat

/-- Each field takes the entry that is written for it. -/
theorem takes_all (s rest : Settings) : List.Forall₂ (Takes s rest) fields s.entries := by
  refine .cons (takes_of (fun _ spells => .text spells _) ?_)
    (.cons (takes_of (fun _ spells => .natural spells s.port.toNat_lt (by decide) _) ?_)
    (.cons (takes_of (fun _ spells => .text spells _) ?_)
    (.cons (takes_of (fun _ => reads_word) ?_)
    (.cons (takes_of (fun _ => reads_optional_word) ?_)
    (.cons (takes_of (fun _ => reads_word) ?_)
    (.cons (takes_of (fun _ => reads_word) ?_)
    (.cons (takes_of (fun _ => reads_optional_text) ?_)
    (.cons (takes_of (fun _ => reads_optional_text) ?_)
    (.cons (takes_of (fun _ => reads_optional_text) ?_)
    (.cons (takes_of (fun _ spells => .natural spells s.attempts.toNat_lt (by decide) _) ?_)
    (.cons (takes_of (fun _ => reads_word) ?_) .nil)))))))))))
  all_goals
    intro names
    simp [merge, toUInt64_comp_toNat]

end Fields

/-- The members describe the settings: each field is given at most once and as it would be written,
and only defaults are left out. Members of other names may have any value. -/
structure Describes (s : Settings) (members : List Member) : Prop where
  denote : keysDenote members = true
  once : GivenOnce fields members
  spelled : ∀ member ∈ members, ∀ entry ∈ s.entries, member.key.string? = some entry.1 →
    member.value.tree? = some entry.2
  omitted : ∀ entry ∈ s.entries, (∀ member ∈ members, member.key.string? ≠ some entry.1) →
    entry ∈ entries { endpoint := s.endpoint, thingName := s.thingName } ∧
      entry.1 ≠ "endpoint" ∧ entry.1 ≠ "thing_name"

theorem eq_none {α : Type} {write : α → Value} {a : Option α} (other : ∀ a, (write a).tree ≠ .null)
    (same : (Value.ofOption write a).tree = (Value.ofOption write none).tree) : a = none := by
  cases a with
  | none => rfl
  | some a => exact absurd same (other a)

/-- Where every field that is missing has its default, nothing is missing. -/
theorem merge_eq (omitted : ∀ entry ∈ s.entries, entry.1 ∉ names →
    entry ∈ entries { endpoint := s.endpoint, thingName := s.thingName } ∧
      entry.1 ≠ "endpoint" ∧ entry.1 ≠ "thing_name") :
    merge names s { endpoint := "", thingName := "" } = s := by
  have kept {α : Type} {name : String} {a default : α} (same : name ∉ names → a = default) :
      (if name ∈ names then a else default) = a := by
    split
    · rfl
    · next absent => exact (same absent).symm
  obtain ⟨endpoint, port, thingName, bufferSize, interface, ⟨connect, io⟩, rootCaPath,
    clientCertPath, clientKeyPath, attempts, retryWait⟩ := s
  have parts : "endpoint" ∈ names ∧ ("port" ∉ names → port.toNat = 8443) ∧
      "thing_name" ∈ names ∧ ("buffer_size" ∉ names → bufferSize.toNat = 4096) ∧
      ("interface" ∉ names → (Value.ofOption (fun n => .natural n.toNat) interface).tree =
        (Value.ofOption (fun n : UInt64 => .natural n.toNat) none).tree) ∧
      ("connect_timeout_ms" ∉ names → connect.toNat = 5000) ∧
      ("io_timeout_ms" ∉ names → io.toNat = 2000) ∧
      ("root_ca_path" ∉ names →
        (Value.ofOption .text rootCaPath).tree = (Value.ofOption Value.text none).tree) ∧
      ("client_cert_path" ∉ names →
        (Value.ofOption .text clientCertPath).tree = (Value.ofOption Value.text none).tree) ∧
      ("client_key_path" ∉ names →
        (Value.ofOption .text clientKeyPath).tree = (Value.ofOption Value.text none).tree) ∧
      ("attempts" ∉ names → attempts.toNat = 3) ∧
      ("retry_wait_ms" ∉ names → retryWait.toNat = 2000) := by
    simpa [entries, toJson, Value.tree, Value.memberTrees] using omitted
  obtain ⟨hasEndpoint, samePort, hasThingName, sameBufferSize, sameInterface, sameConnect, sameIo,
    sameRootCa, sameClientCert, sameClientKey, sameAttempts, sameRetryWait⟩ := parts
  simp only [merge, mk.injEq, Timeouts.mk.injEq]
  exact ⟨if_pos hasEndpoint, kept fun absent => UInt16.toNat_inj.mp (samePort absent),
    if_pos hasThingName, kept fun absent => UInt64.toNat_inj.mp (sameBufferSize absent),
    kept fun absent => eq_none (fun _ => Tree.noConfusion) (sameInterface absent),
    ⟨kept fun absent => UInt64.toNat_inj.mp (sameConnect absent),
      kept fun absent => UInt64.toNat_inj.mp (sameIo absent)⟩,
    kept fun absent => eq_none (fun _ => Tree.noConfusion) (sameRootCa absent),
    kept fun absent => eq_none (fun _ => Tree.noConfusion) (sameClientCert absent),
    kept fun absent => eq_none (fun _ => Tree.noConfusion) (sameClientKey absent),
    kept fun absent => UInt32.toNat_inj.mp (sameAttempts absent),
    kept fun absent => UInt64.toNat_inj.mp (sameRetryWait absent)⟩

theorem names_entries (s : Settings) : s.entries.map Prod.fst = fields.map (·.name) := rfl

theorem exists_field {entry : String × Tree} (member : entry ∈ s.entries) :
    ∃ field ∈ fields, field.name = entry.1 := by
  have named : entry.1 ∈ fields.map (·.name) :=
    names_entries s ▸ List.mem_map_of_mem member
  exact List.mem_map.mp named

theorem exists_entry (rest : Settings) {field : Json.Field Settings} (member : field ∈ fields) :
    ∃ entry ∈ s.entries, Takes s rest field entry := by
  obtain ⟨size, takes⟩ := List.forall₂_iff_get.mp (takes_all s rest)
  obtain ⟨i, inside, rfl⟩ := List.getElem_of_mem member
  exact ⟨s.entries[i], List.getElem_mem (size ▸ inside), takes i inside (size ▸ inside)⟩

theorem mem_given {entry : String × Tree} (member : entry ∈ s.entries) :
    entry.1 ∈ given fields members ↔ ∃ member ∈ members, member.key.string? = some entry.1 := by
  rw [Json.Record.mem_given, and_iff_left (exists_field member)]

theorem required_fields : ∀ field ∈ fields, field.required = true →
    field.name = "endpoint" ∨ field.name = "thing_name" := by
  simp [fields, Json.Field.of]

/-- A text that describes settings is read as these. -/
theorem Describes.parse {source : Source} {inner : Gap} (describes : Describes s members)
    (object : source.value = .object inner members) : parse source.text = .ok s := by
  let rest : Settings := { endpoint := "", thingName := "" }
  have omitted (entry : String × Tree) (member : entry ∈ s.entries)
      (absent : entry.1 ∉ given fields members) := by
    rw [mem_given member] at absent
    exact describes.omitted entry member fun other inside same => absent ⟨other, inside, same⟩
  have complete (field : Json.Field Settings) (member : field ∈ fields)
      (required : field.required = true) : field.name ∈ given fields members := by
    obtain ⟨entry, inside, takes⟩ := exists_entry rest member
    refine Decidable.byContradiction fun absent => ?_
    rw [← takes.name] at absent
    obtain ⟨-, endpoint, thingName⟩ := omitted entry inside absent
    rcases required_fields field member required with same | same
    · exact endpoint (takes.name.trans same)
    · exact thingName (takes.name.trans same)
  have reads (member : Member) (inside : member ∈ members) (field : Json.Field Settings)
      (known : field ∈ fields) (same : member.key.string? = some field.name)
      (names : List String) : Reads (field.read (merge names s rest)) member.value
        (merge (field.name :: names) s rest) := by
    obtain ⟨entry, inside', takes⟩ := exists_entry rest known
    apply takes.reads
    exact describes.spelled member inside entry inside' (same.trans (congrArg some takes.name.symm))
  have decoded := Json.Record.decode_source (merge · s rest) object describes.denote describes.once
    complete reads "DiscoveryConfig"
  have same : merge (given fields members).reverse s rest = s := by
    refine merge_eq fun entry member absent => omitted entry member ?_
    rwa [List.mem_reverse] at absent
  have initial : merge [] s rest = rest := rfl
  rw [same, initial] at decoded
  obtain ⟨chars, isText⟩ := Utf8.isText_iff.mp (Json.isText_source source)
  rw [Settings.parse, isText]
  dsimp only
  rw [decoded]
  rfl

theorem nodup_names (s : Settings) : (s.entries.map Prod.fst).Nodup := by
  rw [names_entries]
  decide

/-- An object describes the settings if it holds some of what would be written, none of it twice,
and nothing but defaults is left out. -/
theorem describes_of_trees {trees : List (String × Tree)}
    (readable : Json.memberTrees? members = some trees) (nodup : (trees.map Prod.fst).Nodup)
    (written : ∀ tree ∈ trees, tree ∈ s.entries)
    (omitted : ∀ entry ∈ s.entries, entry ∉ trees →
      entry ∈ entries { endpoint := s.endpoint, thingName := s.thingName } ∧
        entry.1 ≠ "endpoint" ∧ entry.1 ≠ "thing_name") : Describes s members := by
  have same := Json.map_members readable
  have keys : members.map (·.key.string?) = (trees.map Prod.fst).map some := by
    simpa only [List.map_map, Function.comp_def] using congrArg (List.map Prod.fst) same
  refine ⟨Json.keysDenote_of_trees readable, ?_, ?_, ?_⟩
  · have apart : (members.map (·.key.string?)).Nodup := by
      rw [keys]
      exact nodup.map fun _ _ => Option.some.inj
    refine (List.pairwise_map.mp apart).imp fun apart field _ given again => ?_
    exact apart (given.trans again.symm)
  · intro member inside entry own key
    have spelled : (member.key.string?, member.value.tree?) ∈
        trees.map fun tree => (some tree.1, some tree.2) :=
      same ▸ List.mem_map_of_mem inside
    obtain ⟨other, listed, equal⟩ := List.mem_map.mp spelled
    obtain ⟨named, valued⟩ := Prod.mk.inj equal
    -- Names are different, so the entry of this name is the one that the member spells.
    obtain rfl := List.inj_on_of_nodup_map (nodup_names s) (written other listed) own
      (Option.some.inj (named.trans key))
    exact valued.symm
  · intro entry own absent
    apply omitted entry own
    intro listed
    have named : some entry.1 ∈ members.map (·.key.string?) := by
      rw [keys]
      exact List.mem_map_of_mem (List.mem_map_of_mem listed)
    obtain ⟨member, inside, given⟩ := List.mem_map.mp named
    exact absent member inside given

/-- An object with exactly what would be written describes the settings. -/
theorem describes_written (readable : Json.memberTrees? members = some s.entries) :
    Describes s members :=
  describes_of_trees readable (nodup_names s) (fun _ own => own)
    fun _ own absent => absurd own absent

theorem parse_render (s : Settings) : parse (.ofString s.render) = .ok s := by
  obtain ⟨spelling, written, spells⟩ := Json.exists_spelling_pretty s.toJson
  obtain ⟨inner, members, rfl, readable⟩ := Json.object_of_tree spells
  let source : Source := ⟨[], .object inner members, []⟩
  have text : source.text = .ofString s.render := (List.append_nil _).trans written
  rw [← text]
  exact (describes_written readable).parse rfl

/-- A file that can be read is parsed. -/
theorem load_eq (directory : Directory) (path : String) :
    (load path : ReaderT Directory Id (Except SettingsError Settings)) directory =
      match directory.read path with
      | .error fault => .error (.unreadable fault.message)
      | .ok content => Settings.parse content := by
  change (match directory.read path with
    | .error fault => fun _ => .error (.unreadable fault.message)
    | .ok content => fun _ => Settings.parse content :
      Directory → Except SettingsError Settings) directory = _
  cases directory.read path <;> rfl

/-- A settings file is read as the settings that were written to it, and so is one with any other
object that describes them. -/
theorem load_file (s : Settings) (directory : Directory) (path : String) :
    (directory.read path = .ok (.ofString s.render) →
      (load path : ReaderT Directory Id (Except SettingsError Settings)) directory = .ok s) ∧
    ∀ (source : Source) (inner : Gap) (members : List Member),
      source.value = .object inner members → Describes s members →
      directory.read path = .ok source.text →
      (load path : ReaderT Directory Id (Except SettingsError Settings)) directory = .ok s := by
  constructor
  · intro found
    rw [load_eq, found]
    exact parse_render s
  · intro source inner members object describes found
    rw [load_eq, found]
    exact describes.parse object

section Shuffled

def lastDigit (n : Nat) : Json.HexDigit := ⟨⟨n % 16, Nat.mod_lt n (by decide)⟩, false⟩

/-- A text with every character written by its number, as far as two digits go. -/
def byNumber (text : String) : Json.Literal :=
  text.toList.map fun c =>
    .unit (lastDigit 0) (lastDigit 0) (lastDigit (c.toNat / 16)) (lastDigit c.toNat)

def aside : Settings := { endpoint := "\"", thingName := "t", interface := some 3 }

/-- Five members in another order, among them one that no field has, with half a character. -/
def shuffledMembers : List Member :=
  [⟨[.space], byNumber "thing_name", [], [], .text [.plain 't' (by decide)], []⟩,
   ⟨[], byNumber "note", [.tab], [],
    .list [] [⟨[], .text [.unit (lastDigit 13) (lastDigit 8) (lastDigit 0) (lastDigit 0)], []⟩],
    []⟩,
   ⟨[], byNumber "interface", [], [.space], .number ⟨false, 3, none, none⟩, [.lineFeed]⟩,
   ⟨[], byNumber "endpoint", [], [], .text [.letter .quote], []⟩,
   ⟨[], byNumber "root_ca_path", [], [], .null, []⟩]

def shuffled : Source := ⟨[.lineFeed], .object [.tab] shuffledMembers, [.lineFeed]⟩

theorem describes_shuffled : Describes aside shuffledMembers := by
  have names : shuffledMembers.map (·.key.string?) = [some "thing_name", some "note",
      some "interface", some "endpoint", some "root_ca_path"] := by decide +kernel
  simp only [shuffledMembers, List.map_cons, List.map_nil, List.cons.injEq, and_true] at names
  obtain ⟨thingName, note, interface, endpoint, rootCaPath⟩ := names
  refine ⟨by decide +kernel, ?_, ?_, ?_⟩
  · unfold GivenOnce
    decide +kernel
  · simp [shuffledMembers, aside, entries, toJson, Value.tree, Value.memberTrees, thingName, note,
      interface, endpoint, rootCaPath, Spelling.tree?, Value.ofOption, Json.Literal.units,
      Json.Piece.units, Json.Letter.char]
  · simp [shuffledMembers, aside, entries, toJson, Value.tree, Value.memberTrees, thingName, note,
      interface, endpoint, rootCaPath]

theorem splitOn_c : "c".splitOn "/" = ["c"] := by
  rw [String.splitOn, if_neg (by decide), String.splitOnAux.eq_def, if_neg (by decide +kernel),
    if_neg (by decide +kernel), String.splitOnAux.eq_def, if_pos (by decide +kernel)]
  decide +kernel

theorem read_c (content : Bytes) : Directory.read ⟨[("c", content)]⟩ "c" = .ok content := by
  rw [Directory.read, if_neg (by decide +kernel), if_neg (by decide +kernel),
    if_neg (by decide +kernel), splitOn_c]
  rfl

theorem load_file_shuffled :
    (load "c" : ReaderT Directory Id (Except SettingsError Settings))
      ⟨[("c", .ofString aside.render)]⟩ = .ok aside ∧
    (load "c" : ReaderT Directory Id (Except SettingsError Settings))
      ⟨[("c", shuffled.text)]⟩ = .ok aside := by
  constructor
  · exact (load_file aside _ "c").1 (read_c _)
  · exact (load_file aside _ "c").2 shuffled [.tab] shuffledMembers rfl describes_shuffled
      (read_c _)

end Shuffled
end CoreLocator.Settings
