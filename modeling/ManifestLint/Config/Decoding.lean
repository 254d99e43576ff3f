import ManifestLint.Toml.Document
import ManifestLint.Yaml.Document

/-!
# Configurations

What a configuration file can say, and how it is read from a document. Each setting may be left out,
keys other than those of a configuration are passed over, and one setting of the wrong type spoils
the whole.
-/

namespace ManifestLint

/-- The paths or patterns of the manifests, the format of the report, and whether it has colour. -/
structure Config where
  manifests : Option (List String)
  output : Option String
  color : Option Bool
  deriving DecidableEq, Repr

namespace Config

def unset : Config := ⟨none, none, none⟩

/-! ## TOML -/

section

open Toml (Value Table)

def tomlString? : Value → Option String
  | .string text => some text
  | _ => none

def tomlBoolean? : Value → Option Bool
  | .boolean value => some value
  | _ => none

/-- An array of strings only. -/
def tomlStrings? : Value → Option (List String)
  | .array items => items.mapM tomlString?
  | _ => none

/-- A setting that may be absent, but not of the wrong type. -/
def tomlSetting? {α : Type} (read? : Value → Option α) : Option Value → Option (Option α)
  | none => some none
  | some value => (read? value).map some

def ofToml? (table : Table) : Option Config := do
  let manifests ← tomlSetting? tomlStrings? (table.get? "manifests")
  let output ← tomlSetting? tomlString? (table.get? "output")
  let color ← tomlSetting? tomlBoolean? (table.get? "color")
  return ⟨manifests, output, color⟩

end

/-!
## YAML

The document is a mapping, or nothing. A text is any scalar, as it is written; a boolean is one of six
plain words; a setting that is plainly null is absent. A known key may not come twice.
-/

section

open Yaml (Document Node Style)

/-- The tags of the types that a scalar can be given. -/
def nullTag : List Char := "tag:yaml.org,2002:null".toList

def booleanTag : List Char := "tag:yaml.org,2002:bool".toList

/-- Whether a plain scalar is a word for null. -/
def isNullWord (text : List Char) : Bool :=
  [['~'], "null".toList, "Null".toList, "NULL".toList].contains text

/-- The boolean that a word stands for. -/
def booleanOfWord? (text : List Char) : Option Bool :=
  if ["true".toList, "True".toList, "TRUE".toList].contains text then some true
  else if ["false".toList, "False".toList, "FALSE".toList].contains text then some false
  else none

def yamlString? (document : Document) (node : Node Nat) : Option String :=
  match document.resolve node with
  | .scalar _ _ text => some (String.ofList text)
  | _ => none

/-- A plain word for a boolean, or a literal block that is tagged as one. -/
def yamlBoolean? (document : Document) (node : Node Nat) : Option Bool :=
  match document.resolve node with
  | .scalar properties style text =>
    if style = .plain ∨ (style = .literal ∧ properties.tag = some booleanTag) then booleanOfWord? text
    else none
  | _ => none

/-- A sequence of scalars; nothing counts as an empty one. -/
def yamlStrings? (document : Document) (node : Node Nat) : Option (List String) :=
  match document.resolve node with
  | .sequence _ items => items.mapM (yamlString? document)
  | .scalar _ .plain [] => some []
  | _ => none

/-- A setting that may be null. What is tagged as null must be a word for it. -/
def yamlSetting? {α : Type} (document : Document) (read? : Node Nat → Option α) (node : Node Nat) :
    Option (Option α) :=
  match document.resolve node with
  | .scalar properties .plain text =>
    match properties.tag with
    | none => if text.isEmpty || isNullWord text then some none else (read? node).map some
    | some tag =>
      if tag = nullTag then (if isNullWord text then some none else none)
      else (read? node).map some
  | _ => (read? node).map some

/-- The setting of a key among entries with their keys as texts. -/
def yamlEntry? {α : Type} (document : Document) (read? : Node Nat → Option α) (key : String)
    (entries : List (String × Node Nat)) : Option (Option α) :=
  match entries.filter (·.1 == key) with
  | [] => some none
  | [(_, node)] => yamlSetting? document read? node
  | _ => none

def ofYaml? (document : Document) : Option Config :=
  match document.root with
  | .scalar _ .plain [] => some .unset
  | .mapping _ entries => do
    let entries ← entries.mapM fun (key, node) => do return (← yamlString? document key, node)
    let manifests ← yamlEntry? document (yamlStrings? document) "manifests" entries
    let output ← yamlEntry? document (yamlString? document) "output" entries
    let color ← yamlEntry? document (yamlBoolean? document) "color" entries
    return ⟨manifests, output, color⟩
  | _ => none

end

end Config

end ManifestLint
