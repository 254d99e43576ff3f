import ManifestLint.Report.Basic
import ManifestLint.Style

/-!
# Reports for people

A title between blank lines, then each finding on a line. With more than one manifest, a label line
opens the findings of each. Colour sets the title in bold, and the tags in bold yellow or blue.
-/

namespace ManifestLint.Report

def title : String := "Misconfiguration Check Report:"

def tagStyle : Severity → Style
  | .warning => .yellow
  | .info => .blue

def renderFinding (color : Bool) (finding : Finding) : String :=
  if color then
    Style.bold.apply ((tagStyle finding.severity).apply finding.tag) ++ " " ++ finding.message
  else
    finding.text

/-- The lines of a manifest, where `labelled` says whether its label comes first. -/
def renderManifest (color labelled : Bool) (manifest : ManifestReport) : List String :=
  (if labelled then ["==> " ++ manifest.label] else []) ++ manifest.findings.map (renderFinding color)

def humanLines (report : Report) (color : Bool) : List String :=
  ["", if color then Style.bold.apply title else title, ""] ++
    report.manifests.flatMap (renderManifest color (1 < report.manifests.length))

def toHuman (report : Report) (color : Bool) : String :=
  String.join ((report.humanLines color).map (· ++ "\n"))

end ManifestLint.Report
