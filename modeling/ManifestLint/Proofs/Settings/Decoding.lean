import ManifestLint.Proofs.Runs.AllOrNothing
import ManifestLint.Proofs.Settings.Precedence
import ManifestLint.Proofs.Toml.Keys

/-!
# Decoding of configurations

A document in TOML is a configuration if each known key is absent or has a value of its form, and then
it says exactly these values. Otherwise the document as a whole counts for nothing. Main statement:
`loadConfig_all_or_nothing`.

* `Admits`, `Gives`: what a table has under a key, said of its entries, so that neither other keys nor
  the order of the entries show;
* `Reads`: a reader of values that takes those of one form only;
* `ofToml?_eq_some_iff`: the configuration that a table states is the one that is read from it;
* `mute_iff`: how a document can fail to be a configuration;
* `PassedOver`: what becomes of one that fails.
-/

namespace ManifestLint

namespace Config

open Toml (Value Table)

variable {α : Type} {table : Table} {config : Config}

/-- Whatever a table has under a key is of a form. -/
def Admits (table : Table) (key : String) (form : α → Value) : Prop :=
  ∀ value, (key, value) ∈ table.entries → ∃ a, value = form a

/-- What a table has under a key is the value of a setting, and nothing where it is not set. -/
def Gives (table : Table) (key : String) (form : α → Value) (setting : Option α) : Prop :=
  ∀ value, (key, value) ∈ table.entries ↔ setting.map form = some value

def stringsValue (texts : List String) : Value := .array (texts.map .string)

/-- Each known key of a table is absent, or has a value of its type: an array of strings only, a string,
a boolean. -/
structure WellTyped (table : Table) : Prop where
  manifests : Admits table "manifests" stringsValue
  output : Admits table "output" Value.string
  color : Admits table "color" Value.boolean

/-- A table says of each setting what a configuration says of it. -/
structure StatedBy (table : Table) (config : Config) : Prop where
  manifests : Gives table "manifests" stringsValue config.manifests
  output : Gives table "output" Value.string config.output
  color : Gives table "color" Value.boolean config.color

/-- Two tables have the same under the known keys, whatever else they hold and in whatever order. -/
def SameKnown (table other : Table) : Prop :=
  ∀ key ∈ ["manifests", "output", "color"], ∀ value,
    (key, value) ∈ table.entries ↔ (key, value) ∈ other.entries

/-! ## One setting -/

/-- A reader takes the values of a form, and gives what they are made of. -/
def Reads (read? : Value → Option α) (form : α → Value) : Prop :=
  ∀ value a, read? value = some a ↔ value = form a

theorem reads_string : Reads tomlString? Value.string := by
  intro value text
  cases value <;> simp [tomlString?]

theorem reads_boolean : Reads tomlBoolean? Value.boolean := by
  intro value flag
  cases value <;> simp [tomlBoolean?]

theorem mapM_tomlString?_eq_some_iff {items : List Value} {texts : List String} :
    items.mapM tomlString? = some texts ↔ items = texts.map Value.string := by
  induction items generalizing texts with
  | nil => cases texts <;> simp
  | cons item rest ih =>
    rw [List.mapM_cons]
    constructor
    · intro read
      obtain ⟨text, first, read⟩ := Option.bind_eq_some_iff.1 read
      obtain ⟨others, later, same⟩ := Option.bind_eq_some_iff.1 read
      cases same
      rw [(reads_string item text).1 first, ih.1 later, List.map_cons]
    · intro same
      cases texts with
      | nil => cases same
      | cons text others =>
        obtain ⟨rfl, rfl⟩ := List.cons.inj same
        rw [ih.2 rfl]
        rfl

theorem reads_strings : Reads tomlStrings? stringsValue := by
  intro value texts
  cases value with
  | array items => simp [tomlStrings?, stringsValue, mapM_tomlString?_eq_some_iff]
  | _ => simp [tomlStrings?, stringsValue]

theorem gives_iff (distinct : table.KeysDistinct) {key : String} {form : α → Value} {setting : Option α} :
    Gives table key form setting ↔ table.get? key = setting.map form := by
  unfold Gives
  simp only [← Table.get?_eq_some_iff distinct]
  exact Option.ext_iff.symm

/-- A setting is read as it is given, and only then. -/
theorem tomlSetting?_eq_some_iff {read? : Value → Option α} {form : α → Value}
    (reads : Reads read? form) (distinct : table.KeysDistinct) {key : String} {setting : Option α} :
    tomlSetting? read? (table.get? key) = some setting ↔ Gives table key form setting := by
  rw [gives_iff distinct]
  cases table.get? key with
  | none => cases setting <;> simp [tomlSetting?]
  | some value => cases setting <;> simp [tomlSetting?, reads value]

theorem exists_gives_iff (distinct : table.KeysDistinct) {key : String} {form : α → Value} :
    (∃ setting, Gives table key form setting) ↔ Admits table key form := by
  constructor
  · rintro ⟨setting, gives⟩ value mem
    obtain ⟨a, -, same⟩ := Option.map_eq_some_iff.1 ((gives value).1 mem)
    exact ⟨a, same.symm⟩
  · intro admits
    cases found : table.get? key with
    | none => exact ⟨none, (gives_iff distinct).2 found⟩
    | some value =>
      obtain ⟨a, rfl⟩ := admits value ((Table.get?_eq_some_iff distinct).1 found)
      exact ⟨some a, (gives_iff distinct).2 found⟩

/-! ## All settings -/

theorem ofToml?_eq_some_iff (distinct : table.KeysDistinct) :
    ofToml? table = some config ↔ StatedBy table config := by
  unfold ofToml?
  constructor
  · intro read
    obtain ⟨paths, manifests, read⟩ := Option.bind_eq_some_iff.1 read
    obtain ⟨format, output, read⟩ := Option.bind_eq_some_iff.1 read
    obtain ⟨flag, color, read⟩ := Option.bind_eq_some_iff.1 read
    cases read
    exact ⟨(tomlSetting?_eq_some_iff reads_strings distinct).1 manifests,
      (tomlSetting?_eq_some_iff reads_string distinct).1 output,
      (tomlSetting?_eq_some_iff reads_boolean distinct).1 color⟩
  · rintro ⟨manifests, output, color⟩
    rw [(tomlSetting?_eq_some_iff reads_strings distinct).2 manifests,
      (tomlSetting?_eq_some_iff reads_string distinct).2 output,
      (tomlSetting?_eq_some_iff reads_boolean distinct).2 color]
    rfl

theorem exists_statedBy_iff (distinct : table.KeysDistinct) :
    (∃ config, StatedBy table config) ↔ WellTyped table := by
  constructor
  · rintro ⟨config, manifests, output, color⟩
    exact ⟨(exists_gives_iff distinct).1 ⟨_, manifests⟩, (exists_gives_iff distinct).1 ⟨_, output⟩,
      (exists_gives_iff distinct).1 ⟨_, color⟩⟩
  · rintro ⟨manifests, output, color⟩
    obtain ⟨paths, manifests⟩ := (exists_gives_iff distinct).2 manifests
    obtain ⟨format, output⟩ := (exists_gives_iff distinct).2 output
    obtain ⟨flag, color⟩ := (exists_gives_iff distinct).2 color
    exact ⟨⟨paths, format, flag⟩, manifests, output, color⟩

theorem Gives.of_same {other : Table} {key : String} {form : α → Value} {setting : Option α}
    (same : ∀ value, (key, value) ∈ table.entries ↔ (key, value) ∈ other.entries)
    (gives : Gives table key form setting) : Gives other key form setting := by
  intro value
  rw [← same value, gives value]

theorem StatedBy.of_same {other : Table} (same : SameKnown table other) (stated : StatedBy table config) :
    StatedBy other config := by
  constructor
  · exact stated.manifests.of_same (same "manifests" (by simp))
  · exact stated.output.of_same (same "output" (by simp))
  · exact stated.color.of_same (same "color" (by simp))

/-- Tables that state one configuration have the same under the known keys. -/
theorem StatedBy.sameKnown {other : Table} (stated : StatedBy table config) (stated' : StatedBy other config) :
    SameKnown table other := by
  intro key known value
  simp only [List.mem_cons, List.not_mem_nil, or_false] at known
  obtain rfl | rfl | rfl := known
  · rw [stated.manifests value, stated'.manifests value]
  · rw [stated.output value, stated'.output value]
  · rw [stated.color value, stated'.color value]

theorem SameKnown.symm {other : Table} (same : SameKnown table other) : SameKnown other table :=
  fun key known value => (same key known value).symm

theorem ofToml?_congr {other : Table} (distinct : table.KeysDistinct) (distinct' : other.KeysDistinct)
    (same : SameKnown table other) : ofToml? table = ofToml? other := by
  apply Option.ext
  intro config
  rw [ofToml?_eq_some_iff distinct, ofToml?_eq_some_iff distinct']
  exact ⟨.of_same same, .of_same same.symm⟩

end Config

namespace Workspace

open Config (WellTyped StatedBy)
open Toml (Table)

variable {workspace : Workspace} {root : Path} {content : ByteArray} {config : Config}

/-- The bytes of a document that holds a table. -/
def Document (content : ByteArray) (table : Table) : Prop :=
  ∃ text, content = text.toUTF8 ∧ Toml.parse? text = some table

/-- A configuration is passed over as a whole: it is logged by one warning, and every run in its project
goes as if nothing were set. -/
structure PassedOver (workspace : Workspace) (root : Path) (event : Log.Event) : Prop where
  loaded : workspace.loadConfig root = ⟨none, [event]⟩
  warning : event.level = .warn
  unset : ∀ directory options, workspace.projectRoot (Settings.startOf directory options) = root →
    Settings.Follows workspace (Settings.startOf directory options) options .unset
      (Settings.resolveIn workspace directory options).value

theorem text_unique {text other : String} (here : content = text.toUTF8) (there : content = other.toUTF8) :
    text = other := by
  have read := fromUTF8?_eq_some_iff.2 here
  rw [fromUTF8?_eq_some_iff.2 there, Option.some.injEq] at read
  exact read.symm

theorem Document.distinct {table : Table} (document : Document content table) : table.KeysDistinct := by
  obtain ⟨text, -, parsed⟩ := document
  exact Toml.keysDistinct_of_parse? parsed

/-- Bytes are of one text at most, and a text holds one table at most. -/
theorem Document.unique {table other : Table} (here : Document content table)
    (there : Document content other) : table = other := by
  obtain ⟨text, held, parsed⟩ := here
  obtain ⟨text', held', parsed'⟩ := there
  rw [← text_unique held held', parsed, Option.some.injEq] at parsed'
  exact parsed'

/-- The file that comes first by its name decides wherever it is. -/
theorem decides_of_located
    (there : workspace.locate (root.entry "dockscan.toml") = .ok (.file content)) :
    workspace.Decides root ("dockscan.toml", .toml) := by
  refine ⟨?_, [], _, rfl, by simp⟩
  unfold holds
  rw [there]

/-- What the file says is what the table of its document states. -/
theorem says_toml_iff (there : workspace.locate (root.entry "dockscan.toml") = .ok (.file content)) :
    workspace.Says root ("dockscan.toml", .toml) config ↔
      ∃ table, Document content table ∧ StatedBy table config := by
  unfold Says Config.parse? Document
  simp only [readText_eq_ok_iff, HoldsText, there, Except.ok.injEq, FileTree.file.injEq,
    Option.bind_eq_some_iff]
  constructor
  · rintro ⟨text, held, table, parsed, read⟩
    have distinct := Toml.keysDistinct_of_parse? parsed
    exact ⟨table, ⟨text, held, parsed⟩, (Config.ofToml?_eq_some_iff distinct).1 read⟩
  · rintro ⟨table, ⟨text, held, parsed⟩, stated⟩
    have distinct := Toml.keysDistinct_of_parse? parsed
    exact ⟨text, held, table, parsed, (Config.ofToml?_eq_some_iff distinct).2 stated⟩

/-- How a file can be there and say nothing: its bytes are no text, the text is no document, or a known
key of the document has a value of another type. -/
theorem mute_iff (there : workspace.locate (root.entry "dockscan.toml") = .ok (.file content)) :
    (∀ config, ¬ workspace.Says root ("dockscan.toml", .toml) config) ↔
      (¬ ∃ text : String, content = text.toUTF8) ∨
        (∃ text, content = text.toUTF8 ∧ Toml.parse? text = none) ∨
        (∃ table, Document content table ∧ ¬ WellTyped table) := by
  simp only [says_toml_iff there]
  constructor
  · intro mute
    -- A text that is a document of sound types would say something, so one of the three is missing.
    by_cases isText : ∃ text : String, content = text.toUTF8
    · obtain ⟨text, held⟩ := isText
      cases parsed : Toml.parse? text with
      | none => exact .inr (.inl ⟨text, held, parsed⟩)
      | some table =>
        have document : Document content table := ⟨text, held, parsed⟩
        refine .inr (.inr ⟨table, document, ?_⟩)
        intro typed
        obtain ⟨config, stated⟩ := (Config.exists_statedBy_iff document.distinct).2 typed
        exact mute config ⟨table, document, stated⟩
    · exact .inl isText
  · rintro spoilt config ⟨table, document, stated⟩
    obtain ⟨text, held, parsed⟩ := document
    obtain noText | ⟨other, held', unparsed⟩ | ⟨other, document', illTyped⟩ := spoilt
    · exact noText ⟨text, held⟩
    · rw [text_unique held' held, parsed] at unparsed
      cases unparsed
    · rw [document'.unique ⟨text, held, parsed⟩] at illTyped
      have distinct := Toml.keysDistinct_of_parse? parsed
      exact illTyped ((Config.exists_statedBy_iff distinct).1 ⟨config, stated⟩)

/-! ## What is loaded -/

/-- What is loaded is what the file that decides says. -/
theorem value_loadConfig_eq_some_iff {file : String × Config.Language}
    (decides : workspace.Decides root file) :
    (workspace.loadConfig root).value = some config ↔ workspace.Says root file config := by
  constructor
  · intro loaded
    by_cases stated : ∃ other, workspace.Says root file other
    · obtain ⟨other, stated⟩ := stated
      rw [loadConfig_of_valid decides stated] at loaded
      cases loaded
      exact stated
    · obtain ⟨event, nothing, -⟩ := loadConfig_of_mute decides (not_exists.1 stated)
      rw [nothing] at loaded
      cases loaded
  · intro stated
    rw [loadConfig_of_valid decides stated]

/-- A file that decides is passed over if it says nothing. -/
theorem exists_passedOver_iff {file : String × Config.Language} (decides : workspace.Decides root file) :
    (∃ event, workspace.PassedOver root event) ↔ ∀ config, ¬ workspace.Says root file config := by
  constructor
  · rintro ⟨event, passed⟩ config stated
    have loaded := (value_loadConfig_eq_some_iff decides).2 stated
    rw [passed.loaded] at loaded
    cases loaded
  · intro mute
    obtain ⟨event, loaded, warning, -⟩ := loadConfig_of_mute decides mute
    refine ⟨event, loaded, warning, ?_⟩
    intro directory options same
    subst same
    exact Settings.follows_resolveIn (.broken decides mute)

theorem value_loadConfig_of_document {table : Table}
    (there : workspace.locate (root.entry "dockscan.toml") = .ok (.file content))
    (document : Document content table) (config : Config) :
    (workspace.loadConfig root).value = some config ↔ StatedBy table config := by
  rw [value_loadConfig_eq_some_iff (decides_of_located there), says_toml_iff there]
  constructor
  · rintro ⟨other, document', stated⟩
    rwa [document.unique document']
  · intro stated
    exact ⟨table, document, stated⟩

/-- What is read of a document is what is read from its table. -/
theorem Document.read {table : Table} (document : Document content table)
    (there : workspace.locate (root.entry "dockscan.toml") = .ok (.file content)) :
    ∃ text, workspace.readText (root.entry "dockscan.toml") = .ok text ∧
      Config.parse? text .toml = Config.ofToml? table := by
  obtain ⟨text, held, parsed⟩ := document
  refine ⟨text, ?_, ?_⟩
  · rw [readText_eq_ok_iff, HoldsText, there, held]
  · unfold Config.parse?
    rw [parsed, Option.bind_some]

/-- Files of one name that are read alike come to the same. -/
theorem loadConfig_congr_of_parse? {other : Workspace} {file : String × Config.Language} {text text' : String}
    (here : workspace.Decides root file) (there : other.Decides root file)
    (read : workspace.readText (root.entry file.1) = .ok text)
    (read' : other.readText (root.entry file.1) = .ok text')
    (same : Config.parse? text file.2 = Config.parse? text' file.2) :
    other.loadConfig root = workspace.loadConfig root := by
  rw [loadConfig_of_decides here, loadConfig_of_decides there, read, read']
  dsimp only
  rw [same]

/-- **A configuration counts as a whole or not at all.** A document in TOML is loaded if each known key is
absent or of its type; what is loaded is then exactly what it says, and nothing is logged. If it is no
text, no document, or has a known key of another type, it is passed over, with all that is sound in it.
Other keys and the order of the keys change nothing. -/
theorem loadConfig_all_or_nothing
    (there : workspace.locate (root.entry "dockscan.toml") = .ok (.file content)) :
    (∀ table, Document content table →
      ((∃ config, (workspace.loadConfig root).value = some config) ↔ WellTyped table) ∧
        ∀ config, (workspace.loadConfig root).value = some config ↔ StatedBy table config) ∧
    (∀ config, (workspace.loadConfig root).value = some config →
      (workspace.loadConfig root).events = []) ∧
    ((¬ ∃ text : String, content = text.toUTF8) ∨
        (∃ text, content = text.toUTF8 ∧ Toml.parse? text = none) ∨
        (∃ table, Document content table ∧ ¬ WellTyped table) ↔
      ∃ event, workspace.PassedOver root event) ∧
    ∀ (other : Workspace) (content' : ByteArray) (table table' : Table),
      other.locate (root.entry "dockscan.toml") = .ok (.file content') → Document content table →
        Document content' table' → Config.SameKnown table table' →
          other.loadConfig root = workspace.loadConfig root := by
  have decides := decides_of_located there
  refine ⟨?_, ?_, ?_, ?_⟩
  · intro table document
    have stated := value_loadConfig_of_document there document
    refine ⟨?_, stated⟩
    simp only [stated, Config.exists_statedBy_iff document.distinct]
  · intro config loaded
    rw [loadConfig_of_valid decides ((value_loadConfig_eq_some_iff decides).1 loaded)]
  · rw [exists_passedOver_iff decides, mute_iff there]
  · intro other content' table table' there' document document' same
    obtain ⟨text, read, decoded⟩ := document.read there
    obtain ⟨text', read', decoded'⟩ := document'.read there'
    apply loadConfig_congr_of_parse? decides (decides_of_located there') read read'
    rw [decoded, decoded', Config.ofToml?_congr document.distinct document'.distinct same]

/-- Unknown keys, one of them with a known name inside; the known keys turned round and alone; and an array
of strings that has one bad item at its end, behind a sound key. -/
theorem loadConfig_all_or_nothing_mixed :
    let holding (text : String) : Workspace :=
      ⟨.directory [("dockscan.toml", .file text.toUTF8)], [], 0⟩
    let mixed := holding "color = false\nx.output = \"json\"\nmanifests = [\"b\", \"a\"]"
    let turned := holding "manifests = [\"b\", \"a\"]\ncolor = false"
    let spoilt := holding "output = \"json\"\nmanifests = [\"b\", true]"
    (mixed.loadConfig ⟨"/"⟩).value = some ⟨some ["b", "a"], none, some false⟩ ∧
      turned.loadConfig ⟨"/"⟩ = mixed.loadConfig ⟨"/"⟩ ∧ ∃ event, spoilt.PassedOver ⟨"/"⟩ event := by
  intro holding mixed turned spoilt
  have held (text : String) :
      (holding text).locate ((Path.mk "/").entry "dockscan.toml") = .ok (.file text.toUTF8) := rfl
  have read : Config.parse? "color = false\nx.output = \"json\"\nmanifests = [\"b\", \"a\"]" .toml =
      some ⟨some ["b", "a"], none, some false⟩ := by decide +kernel
  have readTurned : Config.parse? "manifests = [\"b\", \"a\"]\ncolor = false" .toml =
      some ⟨some ["b", "a"], none, some false⟩ := by decide +kernel
  have unread : Config.parse? "output = \"json\"\nmanifests = [\"b\", true]" .toml = none := by
    decide +kernel
  have isDocument : (Toml.parse? "output = \"json\"\nmanifests = [\"b\", true]").isSome = true := by
    decide +kernel
  obtain ⟨table, parsed, decoded⟩ := Option.bind_eq_some_iff.1 read
  obtain ⟨table', parsed', decoded'⟩ := Option.bind_eq_some_iff.1 readTurned
  obtain ⟨other, parsed''⟩ := Option.isSome_iff_exists.1 isDocument
  have stated := (Config.ofToml?_eq_some_iff (Toml.keysDistinct_of_parse? parsed)).1 decoded
  have stated' := (Config.ofToml?_eq_some_iff (Toml.keysDistinct_of_parse? parsed')).1 decoded'
  obtain ⟨loaded, -, -, alike⟩ := loadConfig_all_or_nothing (held _ : mixed.locate _ = _)
  obtain ⟨-, -, passedOver, -⟩ := loadConfig_all_or_nothing (held _ : spoilt.locate _ = _)
  refine ⟨((loaded table ⟨_, rfl, parsed⟩).2 _).2 stated, ?_, passedOver.1 (.inr (.inr ?_))⟩
  · exact alike turned _ table table' (held _) ⟨_, rfl, parsed⟩ ⟨_, rfl, parsed'⟩ (stated.sameKnown stated')
  · refine ⟨other, ⟨_, rfl, parsed''⟩, fun typed => ?_⟩
    obtain ⟨config, said⟩ := (Config.exists_statedBy_iff (Toml.keysDistinct_of_parse? parsed'')).2 typed
    have decoded := (Config.ofToml?_eq_some_iff (Toml.keysDistinct_of_parse? parsed'')).2 said
    rw [Config.parse?, parsed'', Option.bind_some, decoded] at unread
    cases unread

end Workspace

end ManifestLint
