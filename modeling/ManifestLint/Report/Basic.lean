import ManifestLint.Finding

/-!
# Reports

The findings of all manifests of a run, each under its label, and their totals.
-/

namespace ManifestLint

/-- The findings of one manifest, in the order of the rules. -/
structure ManifestReport where
  label : String
  findings : List Finding
  deriving DecidableEq, Repr

/-- How many findings of either severity there are, and in how many manifests they were sought. -/
structure Summary where
  warnings : Nat
  infos : Nat
  manifests : Nat
  deriving DecidableEq, Repr

structure Report where
  manifests : List ManifestReport
  summary : Summary
  deriving DecidableEq, Repr

namespace Report

/-- How many findings of a severity the manifests have together. -/
def count (severity : Severity) (manifests : List ManifestReport) : Nat :=
  (manifests.flatMap (·.findings)).countP (·.severity == severity)

/-- The report on some manifests, with its totals. -/
def ofManifests (manifests : List ManifestReport) : Report where
  manifests := manifests
  summary := ⟨count .warning manifests, count .info manifests, manifests.length⟩

end Report

end ManifestLint
