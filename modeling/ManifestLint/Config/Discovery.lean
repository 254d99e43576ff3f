import ManifestLint.Config.Decoding
import ManifestLint.FileTree.Workspace
import ManifestLint.Log
import ManifestLint.Path.Ancestors

/-!
# Finding a configuration

The root of a project is the nearest directory, from a start upward, that holds a configuration or a
repository. Of the configurations there the first by its name decides, and no other is looked at; one
that cannot be read or is no configuration is logged, and counts as none.
-/

namespace ManifestLint

inductive Config.Language where
  | toml
  | yaml
  deriving DecidableEq, Repr

namespace Config

/-- The names of configurations, the first that is there deciding, with what they are written in. -/
def files : List (String × Language) :=
  [("dockscan.toml", .toml), ("dockscan.yaml", .yaml), ("dockscan.yml", .yaml)]

/-- The names that make a directory the root of a project. -/
def rootMarkers : List String := files.map (·.1) ++ [".git"]

def parse? (text : String) : Language → Option Config
  | .toml => (Toml.parse? text).bind ofToml?
  | .yaml => (Yaml.Document.parse? text).bind ofYaml?

end Config

namespace Workspace

/-- Whether a directory is the root of a project. -/
def marksRoot (workspace : Workspace) (directory : Path) : Bool :=
  Config.rootMarkers.any fun name => workspace.holds (directory.entry name)

/-- The root of the project around a path: the nearest that is marked, or the path itself. -/
def projectRoot (workspace : Workspace) (start : Path) : Path :=
  (start.ancestors.find? workspace.marksRoot).getD start

def loadConfig (workspace : Workspace) (root : Path) : Logged (Option Config) :=
  match Config.files.find? fun (name, _) => workspace.holds (root.entry name) with
  | none => pure none
  | some (name, language) => do
    let path := root.entry name
    match workspace.readText path with
    | .error fault =>
      Logged.log (.unreadableConfig path fault.message)
      return none
    | .ok text =>
      match Config.parse? text language with
      | some config => return some config
      | none =>
        Logged.log (.invalidConfig path)
        return none

end Workspace

end ManifestLint
