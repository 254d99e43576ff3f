import ManifestLint.Proofs.Settings.Manifests

/-!
# Precedence of settings

Which of the command line, the configuration and the default decides a setting, and which file is
the configuration. Main statement: `resolveIn_precedence`.

* `Decides`: the file of a configuration that counts at a root is the first by its name;
* `Configured`: what a root is configured with. A file that is unreadable or no configuration
  configures nothing, and files behind it are not looked at (`loadConfig_congr`);
* `Follows`: settings that go by the command line, then by a configuration, then by the defaults.
-/

namespace ManifestLint

open CommandLine (CheckOptions)

namespace Workspace

/-- A file decides the configuration of a root: it is there, and none of those before it is. -/
structure Decides (workspace : Workspace) (root : Path) (file : String × Config.Language) : Prop where
  present : workspace.holds (root.entry file.1) = true
  first : ∃ earlier later, Config.files = earlier ++ file :: later ∧
    ∀ other ∈ earlier, workspace.holds (root.entry other.1) = false

/-- A file at a root is read, and is a configuration that says this. -/
def Says (workspace : Workspace) (root : Path) (file : String × Config.Language) (config : Config) :
    Prop :=
  ∃ text, workspace.readText (root.entry file.1) = .ok text ∧ Config.parse? text file.2 = some config

/-- What a root is configured with. -/
inductive Configured (workspace : Workspace) (root : Path) : Config → Prop
  | absent (missing : ∀ file ∈ Config.files, workspace.holds (root.entry file.1) = false) :
      Configured workspace root .unset
  | valid {file : String × Config.Language} {config : Config} (decides : workspace.Decides root file)
      (stated : workspace.Says root file config) : Configured workspace root config
  | broken {file : String × Config.Language} (decides : workspace.Decides root file)
      (mute : ∀ config, ¬ workspace.Says root file config) : Configured workspace root .unset

variable {workspace other : Workspace} {root : Path} {file : String × Config.Language} {config : Config}

theorem find?_files_eq_some_iff :
    (Config.files.find? fun file => workspace.holds (root.entry file.1)) = some file ↔
      workspace.Decides root file := by
  rw [List.find?_eq_some_iff_append]
  constructor
  · rintro ⟨present, earlier, later, listed, absent⟩
    exact ⟨present, earlier, later, listed, by simpa using absent⟩
  · rintro ⟨present, earlier, later, listed, absent⟩
    exact ⟨present, earlier, later, listed, by simpa using absent⟩

theorem loadConfig_of_missing
    (missing : ∀ file ∈ Config.files, workspace.holds (root.entry file.1) = false) :
    workspace.loadConfig root = ⟨none, []⟩ := by
  have undecided : (Config.files.find? fun file => workspace.holds (root.entry file.1)) = none := by
    rw [List.find?_eq_none]
    intro file mem
    simp [missing file mem]
  unfold loadConfig
  rw [undecided]
  rfl

/-- What the file that decides comes to. -/
theorem loadConfig_of_decides (decides : workspace.Decides root file) :
    workspace.loadConfig root =
      match workspace.readText (root.entry file.1) with
      | .error fault => ⟨none, [.unreadableConfig (root.entry file.1) fault.message]⟩
      | .ok text =>
        match Config.parse? text file.2 with
        | some config => ⟨some config, []⟩
        | none => ⟨none, [.invalidConfig (root.entry file.1)]⟩ := by
  have found := find?_files_eq_some_iff.2 decides
  unfold loadConfig
  rw [found]
  dsimp only
  cases workspace.readText (root.entry file.1) with
  | error fault => rfl
  | ok text =>
    dsimp only
    cases Config.parse? text file.2 <;> rfl

/-- Only the file that decides is read: what follows it may differ. -/
theorem loadConfig_congr (here : workspace.Decides root file) (there : other.Decides root file)
    (same : other.readText (root.entry file.1) = workspace.readText (root.entry file.1)) :
    other.loadConfig root = workspace.loadConfig root := by
  rw [loadConfig_of_decides here, loadConfig_of_decides there, same]

theorem loadConfig_of_valid (decides : workspace.Decides root file)
    (stated : workspace.Says root file config) : workspace.loadConfig root = ⟨some config, []⟩ := by
  obtain ⟨text, read, parsed⟩ := stated
  rw [loadConfig_of_decides decides, read]
  dsimp only
  rw [parsed]

/-- A file that decides and says nothing is logged as one warning. -/
theorem loadConfig_of_mute (decides : workspace.Decides root file)
    (mute : ∀ config, ¬ workspace.Says root file config) :
    ∃ event : Log.Event, workspace.loadConfig root = ⟨none, [event]⟩ ∧ event.level = .warn ∧
      ((∃ fault, workspace.readText (root.entry file.1) = .error fault ∧
          event = .unreadableConfig (root.entry file.1) fault.message) ∨
        ((∃ text, workspace.readText (root.entry file.1) = .ok text) ∧
          event = .invalidConfig (root.entry file.1))) := by
  rw [loadConfig_of_decides decides]
  cases read : workspace.readText (root.entry file.1) with
  | error fault => exact ⟨_, rfl, rfl, .inl ⟨fault, rfl, rfl⟩⟩
  | ok text =>
    cases parsed : Config.parse? text file.2 with
    | some config => exact absurd ⟨text, read, parsed⟩ (mute config)
    | none =>
      dsimp only
      rw [parsed]
      exact ⟨_, rfl, rfl, .inr ⟨⟨text, rfl⟩, rfl⟩⟩

theorem getD_loadConfig_of_configured (configured : workspace.Configured root config) :
    (workspace.loadConfig root).value.getD .unset = config := by
  cases configured with
  | absent missing => rw [loadConfig_of_missing missing]; rfl
  | valid decides stated => rw [loadConfig_of_valid decides stated]; rfl
  | broken decides mute =>
    obtain ⟨event, loaded, -⟩ := loadConfig_of_mute decides mute
    rw [loaded]
    rfl

/-- Every root is configured with something, be it that nothing is set. -/
theorem exists_configured (workspace : Workspace) (root : Path) :
    ∃ config, workspace.Configured root config := by
  by_cases undecided : ∃ file, workspace.Decides root file
  · obtain ⟨file, decides⟩ := undecided
    by_cases stated : ∃ config, workspace.Says root file config
    · obtain ⟨config, stated⟩ := stated
      exact ⟨config, .valid decides stated⟩
    · exact ⟨.unset, .broken decides (not_exists.1 stated)⟩
  · refine ⟨.unset, .absent ?_⟩
    intro file mem
    have none : (Config.files.find? fun file => workspace.holds (root.entry file.1)) = none := by
      rw [Option.eq_none_iff_forall_ne_some]
      intro file found
      exact undecided ⟨file, find?_files_eq_some_iff.1 found⟩
    simpa using List.find?_eq_none.1 none file mem

end Workspace

namespace Settings

variable {workspace : Workspace} {directory root start : Path} {options : CheckOptions}
  {config : Config}

theorem manifestPaths_of_asked {asked : List String} (some : asked ≠ [])
    (configured : Option (List String)) :
    manifestPaths workspace root start asked configured = pure (asked.map Path.mk) := by
  unfold manifestPaths
  rw [if_neg (by simpa using some)]

/-- Where no entries are configured, no pattern is read. -/
theorem manifestPaths_of_unset (asked : List String) :
    manifestPaths workspace root start asked Config.unset.manifests =
      pure (if asked = [] then [start.entry Manifest.defaultName] else asked.map Path.mk) := by
  by_cases unasked : asked = []
  · rw [unasked, if_pos rfl]
    rfl
  · rw [manifestPaths_of_asked unasked, if_neg unasked]

/-- The settings of a run, by what its root is configured with. -/
theorem value_resolveIn_of_configured
    (configured : workspace.Configured (workspace.projectRoot (startOf directory options)) config) :
    (resolveIn workspace directory options).value =
      let start := startOf directory options
      let root := workspace.projectRoot start
      { projectRoot := root
        manifests := (manifestPaths workspace root start options.paths config.manifests).value
        output := (options.output <|> config.output).getD defaultOutput
        color := !options.noColor && config.color.getD true } := by
  rw [value_resolveIn]
  dsimp only
  rw [Workspace.getD_loadConfig_of_configured configured]

theorem events_resolveIn (workspace : Workspace) (directory : Path) (options : CheckOptions) :
    (resolveIn workspace directory options).events =
      let start := startOf directory options
      let root := workspace.projectRoot start
      let loaded := workspace.loadConfig root
      loaded.events ++ (manifestPaths workspace root start options.paths
        (loaded.value.getD .unset).manifests).events := by
  unfold resolveIn
  simp only [Logged.events_bind, Logged.events_pure, List.append_nil]
  rfl

/-- Runs that detect one root, and are configured with nothing there, are settled alike. -/
theorem value_resolveIn_eq_of_unset {other : Workspace}
    (same : other.projectRoot (startOf directory options) =
      workspace.projectRoot (startOf directory options))
    (here : workspace.Configured (workspace.projectRoot (startOf directory options)) .unset)
    (there : other.Configured (workspace.projectRoot (startOf directory options)) .unset) :
    (resolveIn other directory options).value = (resolveIn workspace directory options).value := by
  rw [value_resolveIn_of_configured here, value_resolveIn_of_configured (same ▸ there)]
  dsimp only
  rw [same, manifestPaths_of_unset, manifestPaths_of_unset]

/-- Settings that go by the command line, where it says nothing by a configuration, and else by the
defaults. Of the manifests only those that are configured are patterns. -/
structure Follows (workspace : Workspace) (start : Path) (options : CheckOptions) (config : Config)
    (settings : Settings) : Prop where
  root : settings.projectRoot = workspace.projectRoot start
  outputAsked : ∀ asked, options.output = some asked → settings.output = asked
  outputSet : options.output = none → ∀ set, config.output = some set → settings.output = set
  outputUnset : options.output = none → config.output = none → settings.output = "human"
  color : settings.color = true ↔ options.noColor = false ∧ config.color ≠ some false
  asked : options.paths ≠ [] → settings.manifests = options.paths.map Path.mk
  configured : options.paths = [] → ∀ entries, config.manifests = some entries → entries ≠ [] →
    settings.manifests = Path.distinct (entries.flatMap fun entry =>
      (expandEntry workspace (workspace.projectRoot start) entry).value)
  unconfigured : options.paths = [] → config.manifests.getD [] = [] →
    settings.manifests = [start.entry "Dockerfile"]

theorem follows_resolveIn
    (configured : workspace.Configured (workspace.projectRoot (startOf directory options)) config) :
    Follows workspace (startOf directory options) options config
      (resolveIn workspace directory options).value := by
  rw [value_resolveIn_of_configured configured]
  constructor
  case root => rfl
  case outputAsked =>
    intro asked given
    simp [given]
  case outputSet =>
    intro unasked set given
    simp [unasked, given]
  case outputUnset =>
    intro unasked unset
    simp [unasked, unset, defaultOutput]
  case color =>
    cases options.noColor <;> cases config.color <;> simp
  case asked =>
    intro asked
    simp only [manifestPaths_of_asked asked, Logged.value_pure]
  case configured =>
    intro unasked entries given some
    simp only [unasked]
    obtain ⟨found, same, expanded⟩ | ⟨empty, -⟩ := @manifestPaths_cases workspace
      (workspace.projectRoot (startOf directory options)) (startOf directory options) config.manifests
    · rw [given, Option.some.injEq] at same
      rw [expanded, value_expandEntries, same]
    · rw [given] at empty
      exact absurd empty some
  case unconfigured =>
    intro unasked empty
    simp only [unasked]
    cases given : config.manifests with
    | none => rfl
    | some entries =>
      rw [given, Option.getD_some] at empty
      rw [empty]
      rfl

/-- A run whose root has a file that decides and says nothing logs one warning, about that file. -/
theorem events_resolveIn_of_mute {file : String × Config.Language}
    (decides : workspace.Decides (workspace.projectRoot (startOf directory options)) file)
    (mute : ∀ config,
      ¬ workspace.Says (workspace.projectRoot (startOf directory options)) file config) :
    (resolveIn workspace directory options).events =
      (workspace.loadConfig (workspace.projectRoot (startOf directory options))).events := by
  obtain ⟨event, loaded, -⟩ := Workspace.loadConfig_of_mute decides mute
  rw [events_resolveIn]
  dsimp only
  rw [loaded, Option.getD_none, manifestPaths_of_unset, Logged.events_pure, List.append_nil]

/-- **The command line comes before the configuration, and the configuration before the defaults.** The
configuration of the root is the first file by its name, whatever those behind it are. One that is
unreadable or no configuration is logged once, and counts as one that sets nothing. What is asked for
is taken as it is, so it is the same in every tree. -/
theorem resolveIn_precedence (workspace : Workspace) (directory : Path) (options : CheckOptions) :
    let start := (options.projectRoot.map (directory.join ⟨·⟩)).getD directory
    let root := workspace.projectRoot start
    let settings := (resolveIn workspace directory options).value
    Config.files.map (·.1) = ["dockscan.toml", "dockscan.yaml", "dockscan.yml"] ∧
    (∃ config, workspace.Configured root config ∧
      Follows workspace start options config settings) ∧
    (∀ file, workspace.Decides root file →
      (∀ other : Workspace, other.Decides root file →
        other.readText (root.entry file.1) = workspace.readText (root.entry file.1) →
          other.loadConfig root = workspace.loadConfig root) ∧
      ((∀ config, ¬ workspace.Says root file config) →
        (∃ event : Log.Event, (resolveIn workspace directory options).events = [event] ∧
          event.level = .warn ∧
          ((∃ fault, workspace.readText (root.entry file.1) = .error fault ∧
              event = .unreadableConfig (root.entry file.1) fault.message) ∨
            ((∃ text, workspace.readText (root.entry file.1) = .ok text) ∧
              event = .invalidConfig (root.entry file.1)))) ∧
        ∀ other : Workspace, other.projectRoot start = root → other.Configured root .unset →
          (resolveIn other directory options).value = settings)) ∧
    ∀ other : Workspace,
      let others := (resolveIn other directory options).value
      (options.paths ≠ [] → others.manifests = settings.manifests) ∧
        (options.output ≠ none → others.output = settings.output) ∧
        (options.noColor = true → others.color = settings.color) := by
  intro start root settings
  refine ⟨rfl, ?_, ?_, ?_⟩
  · obtain ⟨config, configured⟩ := workspace.exists_configured root
    exact ⟨config, configured, follows_resolveIn configured⟩
  · intro file decides
    refine ⟨fun other there same => Workspace.loadConfig_congr decides there same, ?_⟩
    intro mute
    constructor
    · obtain ⟨event, loaded, described⟩ := Workspace.loadConfig_of_mute decides mute
      refine ⟨event, ?_, described⟩
      exact (events_resolveIn_of_mute decides mute).trans (congrArg Logged.events loaded)
    · intro other same unset
      exact value_resolveIn_eq_of_unset same (.broken decides mute) unset
  · intro other
    refine ⟨?_, ?_, ?_⟩
    · intro asked
      simp only [settings, value_resolveIn, manifestPaths_of_asked asked, Logged.value_pure]
    · intro asked
      obtain ⟨output, given⟩ := Option.ne_none_iff_exists'.1 asked
      simp [settings, value_resolveIn, given]
    · intro plain
      simp [settings, value_resolveIn, plain]

/-- A configuration with a setting of the wrong type, before another file, seen from a directory below
the root. It counts as much as one without a word. -/
theorem resolveIn_precedence_broken :
    let broken : Workspace := ⟨.directory [("dockscan.toml", .file "output = 3".toUTF8),
      ("dockscan.yaml", .file "output: json".toUTF8), ("sub", .directory [])], [], 0⟩
    let empty : Workspace := ⟨.directory [("dockscan.toml", .file ByteArray.empty)], [], 0⟩
    let options : CheckOptions := ⟨[], some "sub", none, true⟩
    (resolveIn broken ⟨"/"⟩ options).events = [.invalidConfig ⟨"/dockscan.toml"⟩] ∧
      (resolveIn broken ⟨"/"⟩ options).value = ⟨⟨"/"⟩, [⟨"/sub/Dockerfile"⟩], "human", false⟩ ∧
      (resolveIn empty ⟨"/"⟩ options).value = (resolveIn broken ⟨"/"⟩ options).value ∧
      ((resolveIn empty ⟨"/"⟩ options).value.color = (resolveIn broken ⟨"/"⟩ options).value.color) := by
  intro broken empty options
  have root : broken.projectRoot ⟨"/sub"⟩ = ⟨"/"⟩ := by decide +kernel
  have decides : broken.Decides ⟨"/"⟩ ("dockscan.toml", .toml) :=
    ⟨by decide +kernel, [], _, rfl, by simp⟩
  have mute (config : Config) : ¬ broken.Says ⟨"/"⟩ ("dockscan.toml", .toml) config := by
    rintro ⟨text, read, parsed⟩
    have held : text = "output = 3" := Except.ok.inj (read.symm.trans rfl)
    have unread : Config.parse? "output = 3" .toml = none := by decide +kernel
    rw [held, unread] at parsed
    cases parsed
  have unset : empty.Configured ⟨"/"⟩ .unset :=
    .valid ⟨by decide +kernel, [], _, rfl, by simp⟩ ⟨"", rfl, by decide +kernel⟩
  have detected : empty.projectRoot ⟨"/sub"⟩ = ⟨"/"⟩ := by decide +kernel
  obtain ⟨-, -, sole, two⟩ := resolveIn_precedence broken ⟨"/"⟩ options
  have start : (options.projectRoot.map ((Path.mk "/").join ⟨·⟩)).getD ⟨"/"⟩ = ⟨"/sub"⟩ := by
    decide +kernel
  rw [start, root] at sole
  obtain ⟨⟨event, logged, -, about⟩, alike⟩ := (sole _ decides).2 mute
  have same := alike empty detected unset
  refine ⟨?_, by decide +kernel, same, (two empty).2.2 rfl⟩
  obtain ⟨fault, failed, -⟩ | ⟨-, rfl⟩ := about
  · cases failed
  · exact logged

end Settings

end ManifestLint
