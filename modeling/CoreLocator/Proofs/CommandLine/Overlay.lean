import CoreLocator.CommandLine.Arguments
import CoreLocator.Files.Directory
import CoreLocator.Proofs.Json.Denotation
import CoreLocator.Proofs.Settings.File

/-! What a command line changes in the settings of a file. Each of its options goes to one field and
to no other, and where there is no file the service and the thing alone are enough for one. -/
namespace CoreLocator

open Json (Denotes Tree)

namespace Settings
variable {endpoint thingName : String}

theorem entries_required (endpoint thingName : String) :
    ("endpoint", .ofText endpoint) ∈ entries { endpoint, thingName } ∧
      ("thing_name", .ofText thingName) ∈ entries { endpoint, thingName } := by
  constructor
  · exact List.mem_cons_self
  · exact List.mem_cons_of_mem _ (List.mem_cons_of_mem _ List.mem_cons_self)

/-- A file with the service and the thing and nothing else has defaults for all the rest. -/
theorem parse_required {content : Bytes} {members : List (String × Tree)}
    (required : members.Perm [("endpoint", .ofText endpoint), ("thing_name", .ofText thingName)])
    (denotes : Denotes content (.object members)) :
    parse content = .ok { endpoint, thingName } := by
  obtain ⟨source, rfl, spells⟩ := denotes
  obtain ⟨inner, spelled, object, readable⟩ := Json.object_of_tree spells
  obtain ⟨service, thing⟩ := entries_required endpoint thingName
  refine (describes_of_trees readable ?_ ?_ ?_).parse object
  · rw [(required.map Prod.fst).nodup_iff]
    change ["endpoint", "thing_name"].Nodup
    decide
  · intro tree member
    rcases List.mem_pair.mp (required.mem_iff.mp member) with rfl | rfl
    · exact service
    · exact thing
  · intro entry own absent
    have apart {name : String} {tree : Tree}
        (listed : (name, tree) ∈ entries { endpoint, thingName })
        (present : (name, tree) ∈ members) : entry.1 ≠ name := by
      intro same
      obtain rfl := List.inj_on_of_nodup_map (nodup_names _) own listed same
      exact absent present
    exact ⟨own, apart service (required.mem_iff.mpr List.mem_cons_self),
      apart thing (required.mem_iff.mpr (List.mem_cons_of_mem _ List.mem_cons_self))⟩

end Settings

namespace CommandLine

/-- The settings that a command line can give. -/
inductive Override
  | endpoint
  | port
  | thingName
  | bufferSize
  | interface
  | rootCa
  | cert
  | key
  | attempts
  | retryWait
  deriving DecidableEq, Repr

namespace Override

def Value : Override → Type
  | endpoint => String
  | port => UInt16
  | thingName => String
  | bufferSize => UInt64
  | interface => Option UInt64
  | rootCa => Option String
  | cert => Option String
  | key => Option String
  | attempts => UInt32
  | retryWait => UInt64

/-- What the command line says about the field. A field that may be absent can be given a value, but
cannot be taken away. -/
def given? : (o : Override) → Arguments → Option o.Value
  | endpoint, a => a.endpoint
  | port, a => a.port
  | thingName, a => a.thingName
  | bufferSize, a => a.bufferSize
  | interface, a => a.interface.map some
  | rootCa, a => a.rootCa.map some
  | cert, a => a.cert.map some
  | key, a => a.key.map some
  | attempts, a => a.attempts
  | retryWait, a => a.retryWait

def field : (o : Override) → Settings → o.Value
  | endpoint, s => s.endpoint
  | port, s => s.port
  | thingName, s => s.thingName
  | bufferSize, s => s.bufferSize
  | interface, s => s.interface
  | rootCa, s => s.rootCaPath
  | cert, s => s.clientCertPath
  | key, s => s.clientKeyPath
  | attempts, s => s.attempts
  | retryWait, s => s.retryWait

end Override

namespace Arguments

abbrev settingsIn (a : Arguments) (directory : Directory) : Except Unconfigured Settings :=
  (a.settings : ReaderT Directory Id (Except Unconfigured Settings)) directory

variable {a b : Arguments} {directory : Directory} {path : String}

theorem field_overlay (o : Override) (a : Arguments) (s : Settings) :
    o.field (a.overlay s) = (o.given? a).getD (o.field s) := by
  have optional {α : Type} (given own : Option α) :
      given.or own = (given.map some).getD own := by
    cases given <;> rfl
  cases o with
  | interface => exact optional a.interface s.interface
  | rootCa => exact optional a.rootCa s.rootCaPath
  | cert => exact optional a.cert s.clientCertPath
  | key => exact optional a.key s.clientKeyPath
  | _ => rfl

theorem settingsIn_file (config : a.config = some path) {loaded : Except SettingsError Settings}
    (found : (Settings.load path : ReaderT Directory Id (Except SettingsError Settings)) directory =
      loaded) :
    a.settingsIn directory = (loaded.mapError (.unreadable path)).map a.overlay := by
  unfold settingsIn settings base
  rw [config, ← found]
  rfl

theorem settingsIn_incomplete (config : a.config = none)
    (absent : a.endpoint = none ∨ a.thingName = none) :
    a.settingsIn directory = .error .incomplete := by
  unfold settingsIn settings base
  rw [config]
  rcases absent with absent | absent
  · rw [absent]
    rfl
  · rw [absent]
    cases a.endpoint <;> rfl

theorem settingsIn_required {endpoint thingName : String} (config : a.config = none)
    (service : a.endpoint = some endpoint) (thing : a.thingName = some thingName) :
    a.settingsIn directory = .ok (a.overlay { endpoint, thingName }) := by
  unfold settingsIn settings base
  rw [config, service, thing]
  rfl

/-- Command lines that name the same file, or none, differ only by what they put in its place. -/
theorem exists_base (config : Option String) (directory : Directory) :
    ∃ base : Settings, ∀ (a : Arguments) (s : Settings), a.config = config →
      a.settingsIn directory = .ok s → s = a.overlay base := by
  cases config with
  | some path =>
    cases loaded :
      (Settings.load path : ReaderT Directory Id (Except SettingsError Settings)) directory with
    | error error =>
      refine ⟨{ endpoint := "", thingName := "" }, ?_⟩
      intro a s config found
      rw [settingsIn_file config loaded] at found
      contradiction
    | ok base =>
      refine ⟨base, ?_⟩
      intro a s config found
      rw [settingsIn_file config loaded] at found
      exact (Except.ok.inj found).symm
  | none =>
    -- The service and the thing are both given, so it does not matter which the base has.
    refine ⟨{ endpoint := "", thingName := "" }, ?_⟩
    intro a s config found
    cases service : a.endpoint with
    | none =>
      rw [settingsIn_incomplete config (.inl service)] at found
      contradiction
    | some endpoint =>
      cases thing : a.thingName with
      | none =>
        rw [settingsIn_incomplete config (.inr thing)] at found
        contradiction
      | some thingName =>
        rw [settingsIn_required config service thing] at found
        obtain rfl := Except.ok.inj found
        simp only [overlay, service, thing, Option.getD_some]

/-- What the command line gives takes the place of what the file says, field by field, and a file
that cannot be read or parsed is a failure whatever the command line gives. Without a file there
have to be a service and a thing, and these stand for a file with nothing else in it. A field of
settings that are found depends on its own option and on no other. -/
theorem settings_overlay (a : Arguments) (directory : Directory) :
    (∀ path, a.config = some path →
      (∀ fault, directory.read path = .error fault →
        a.settingsIn directory = .error (.unreadable path (.unreadable fault.message))) ∧
      ∀ content, directory.read path = .ok content →
        (∀ error, Settings.parse content = .error error →
          a.settingsIn directory = .error (.unreadable path error)) ∧
        ∀ s, Settings.parse content = .ok s →
          ∃ merged, a.settingsIn directory = .ok merged ∧ merged.timeouts = s.timeouts ∧
            ∀ o : Override, o.field merged = (o.given? a).getD (o.field s)) ∧
    (a.config = none →
      (a.endpoint = none ∨ a.thingName = none → a.settingsIn directory = .error .incomplete) ∧
      ∀ endpoint thingName, a.endpoint = some endpoint → a.thingName = some thingName →
        (∃ merged, a.settingsIn directory = .ok merged) ∧
        ∀ (other : Directory) (path : String) (content : Bytes) (members : List (String × Tree)),
          members.Perm [("endpoint", .ofText endpoint), ("thing_name", .ofText thingName)] →
          Denotes content (.object members) → other.read path = .ok content →
          a.settingsIn directory = { a with config := some path }.settingsIn other) ∧
    ∀ (b : Arguments) (s t : Settings), a.config = b.config →
      a.settingsIn directory = .ok s → b.settingsIn directory = .ok t →
      s.timeouts = t.timeouts ∧
        ∀ o : Override, o.given? a = o.given? b → o.field s = o.field t := by
  refine ⟨?_, ?_, ?_⟩
  · intro path config
    have loaded := Settings.load_eq directory path
    constructor
    · intro fault unread
      rw [unread] at loaded
      exact settingsIn_file config loaded
    · intro content found
      rw [found] at loaded
      constructor
      · intro error unparsed
        exact settingsIn_file config (loaded.trans unparsed)
      · intro s parsed
        refine ⟨a.overlay s, settingsIn_file config (loaded.trans parsed), rfl, ?_⟩
        intro o
        exact field_overlay o a s
  · intro config
    refine ⟨settingsIn_incomplete config, ?_⟩
    intro endpoint thingName service thing
    rw [settingsIn_required config service thing]
    refine ⟨⟨_, rfl⟩, ?_⟩
    intro other path content members required denotes found
    have named : { a with config := some path }.config = some path := rfl
    have loaded := Settings.load_eq other path
    rw [found] at loaded
    exact (settingsIn_file named (loaded.trans (Settings.parse_required required denotes))).symm
  · intro b s t config found found'
    obtain ⟨base, shared⟩ := exists_base b.config directory
    obtain rfl := shared a s config found
    obtain rfl := shared b t rfl found'
    refine ⟨rfl, ?_⟩
    intro o same
    rw [field_overlay, field_overlay, same]

/-- Options over a file, and options that do without one. -/
theorem settings_overlay_aside :
    let file : Directory := ⟨[("c", .ofString Settings.aside.render)]⟩
    let required : Json.Value := .object [("thing_name", .text "t"), ("endpoint", .text "e")]
    let changing : Arguments := { config := some "c", port := some 1, interface := some 7 }
    let alone : Arguments := { endpoint := some "e", thingName := some "t", attempts := some 5 }
    (∃ merged, changing.settingsIn file = .ok merged ∧
      merged.endpoint = "\"" ∧ merged.port = 1 ∧ merged.interface = some 7) ∧
    changing.settingsIn ⟨[]⟩ ≠ changing.settingsIn file ∧
    alone.settingsIn file =
      { alone with config := some "c" }.settingsIn
        ⟨[("c", .ofString (required.pretty ++ "\n"))]⟩ := by
  intro file required changing alone
  obtain ⟨merged, found, -, fields⟩ :=
    ((settings_overlay changing file).1 "c" rfl).2 _ (Settings.read_c _) |>.2 _
      (Settings.parse_render Settings.aside)
  refine ⟨⟨merged, found, fields .endpoint, fields .port, fields .interface⟩, ?_, ?_⟩
  · have missing : Directory.read ⟨[]⟩ "c" = .error .notFound := by
      rw [Directory.read, if_neg (by decide +kernel), if_neg (by decide +kernel),
        if_neg (by decide +kernel), Settings.splitOn_c]
      rfl
    intro same
    rw [found, ((settings_overlay changing ⟨[]⟩).1 "c" rfl).1 _ missing] at same
    contradiction
  · apply (((settings_overlay alone file).2.1 rfl).2 "e" "t" rfl rfl).2 _ "c" _
      [("thing_name", .ofText "t"), ("endpoint", .ofText "e")]
    · exact .swap _ _ _
    · exact (Json.denotes_pretty required).mpr rfl
    · exact Settings.read_c _

end Arguments
end CommandLine
end CoreLocator
