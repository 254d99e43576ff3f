import ManifestLint.Json.Printer
import ManifestLint.Report.Basic

/-!
# Reports for programs

A report as a JSON document.
-/

namespace ManifestLint

/-- The severity, rule, line and message of a finding, in this order. -/
def Finding.toJson (finding : Finding) : Json :=
  .object [
    ("severity", .string finding.severity.name),
    ("rule", .string finding.rule),
    ("line", (finding.line.map Json.number).getD .null),
    ("message", .string finding.message)]

def ManifestReport.toJson (report : ManifestReport) : Json :=
  .object [("path", .string report.label), ("findings", .array (report.findings.map Finding.toJson))]

def Summary.toJson (summary : Summary) : Json :=
  .object [
    ("warnings", .number summary.warnings),
    ("infos", .number summary.infos),
    ("manifests", .number summary.manifests)]

namespace Report

def toJson (report : Report) : Json :=
  .object [
    ("manifests", .array (report.manifests.map ManifestReport.toJson)),
    ("summary", report.summary.toJson)]

/-- The report as a document, with a line feed at its end. -/
def toDocument (report : Report) : String := report.toJson.pretty ++ "\n"

end Report

end ManifestLint
