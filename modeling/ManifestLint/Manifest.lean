import ManifestLint.FileTree.Workspace
import ManifestLint.Text.Lines

/-!
# Manifests

A container build manifest, as the lines of its text. It is read anew each time it is asked for.
-/

namespace ManifestLint

structure Manifest where
  path : Path
  lines : List String
  deriving DecidableEq, Repr

def Manifest.ofText (path : Path) (text : String) : Manifest := ⟨path, Text.splitLines text⟩

/-- The path of a manifest where none is named. -/
def Manifest.defaultName : String := "Dockerfile"

def Workspace.loadManifest (workspace : Workspace) (path : Path) : Except LoadError Manifest :=
  match workspace.readText path with
  | .ok text => .ok (.ofText path text)
  | .error fault => .error ⟨path, fault⟩

end ManifestLint
