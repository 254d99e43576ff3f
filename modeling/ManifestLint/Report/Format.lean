import ManifestLint.Report.Document
import ManifestLint.Report.Human

/-!
# Formats of a report

The two forms in which a report can be had, by their names.
-/

namespace ManifestLint.Report

inductive Format where
  | human
  | json
  deriving DecidableEq, Repr

/-- The format of that name. -/
def Format.ofName? : String → Option Format
  | "human" => some .human
  | "json" => some .json
  | _ => none

/-- The report in a format. Colour is for people only. -/
def render (report : Report) (color : Bool) : Format → String
  | .human => report.toHuman color
  | .json => report.toDocument

end ManifestLint.Report
