import ManifestLint.Manifest
import ManifestLint.Path.Label
import ManifestLint.Report.Basic
import ManifestLint.Rule.Registry
import ManifestLint.Schedule

/-!
# Checking manifests

A checker finds what there is to find in one manifest. A run over several checks them at the same time,
under some schedule, and is all or nothing: one that cannot be read ends it. Nothing is kept from one
check to the next.
-/

namespace ManifestLint

structure Checker where
  path : Path
  deriving DecidableEq, Repr

namespace Checker

/-- The checker of the manifest where none is named. -/
def default : Checker := ⟨⟨Manifest.defaultName⟩⟩

/-- The findings of all rules, rule by rule, with a note of how many each has. -/
def evaluate (lines : List String) : Logged (List Finding) where
  value := Rule.checkAll lines
  events := Rule.registry.map fun rule => .evaluated rule.id (rule.check lines).length

/-- Reads the manifest and checks it. -/
def run (checker : Checker) (workspace : Workspace) : Logged (Except LoadError (List Finding)) :=
  match workspace.loadManifest checker.path with
  | .error error => pure (.error error)
  | .ok manifest => do
    Logged.log (.loaded checker.path manifest.lines.length)
    let findings ← evaluate manifest.lines
    Logged.log (.checked checker.path findings.length)
    return .ok findings

end Checker

namespace Workspace

/-- The report on a manifest, labelled for a project. -/
def report (workspace : Workspace) (root path : Path) : Logged (Except LoadError ManifestReport) := do
  return (← (Checker.mk path).run workspace).map (⟨root.label path, ·⟩)

/-- The reports on some manifests in their order, or the error of one that cannot be read. -/
def reports (workspace : Workspace) (schedule : Schedule) (root : Path) (paths : List Path) :
    Logged (Except LoadError (List ManifestReport)) :=
  schedule.run (paths.map (workspace.report root))

/-- The report on some manifests of a project. -/
def lint (workspace : Workspace) (schedule : Schedule) (root : Path) (paths : List Path) :
    Logged (Except LoadError Report) := do
  return (← workspace.reports schedule root paths).map .ofManifests

end Workspace

end ManifestLint
