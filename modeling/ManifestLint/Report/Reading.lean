import ManifestLint.Json.Parser
import ManifestLint.Report.Basic

/-!
# Reading reports

A report, read back from a JSON document. The members of an object are found by their keys, in
whatever order they stand, and all of them must be there.
-/

namespace ManifestLint

namespace Json.Tree

/-- What belongs to a key. -/
def member? (key : String) : Tree → Option Tree
  | .object members => members.lookup key
  | _ => none

def text? : Tree → Option String
  | .string text => some text
  | _ => none

def natural? : Tree → Option Nat
  | .number literal =>
    if literal.all Char.isDigit then some (Nat.ofDigitChars 10 literal 0) else none
  | _ => none

def items? : Tree → Option (List Tree)
  | .array items => some items
  | _ => none

end Json.Tree

open Json (Tree)

def Severity.ofName? : String → Option Severity
  | "WARNING" => some .warning
  | "INFO" => some .info
  | _ => none

/-- A line number, or null for none. -/
def Finding.lineOfTree? : Tree → Option (Option Nat)
  | .null => some none
  | tree => tree.natural?.map some

def Finding.ofTree? (tree : Tree) : Option Finding := do
  let severity ← Severity.ofName? (← (← tree.member? "severity").text?)
  let rule ← (← tree.member? "rule").text?
  let line ← lineOfTree? (← tree.member? "line")
  let message ← (← tree.member? "message").text?
  return ⟨severity, rule, line, message⟩

def ManifestReport.ofTree? (tree : Tree) : Option ManifestReport := do
  let label ← (← tree.member? "path").text?
  let findings ← (← (← tree.member? "findings").items?).mapM Finding.ofTree?
  return ⟨label, findings⟩

def Summary.ofTree? (tree : Tree) : Option Summary := do
  let warnings ← (← tree.member? "warnings").natural?
  let infos ← (← tree.member? "infos").natural?
  let manifests ← (← tree.member? "manifests").natural?
  return ⟨warnings, infos, manifests⟩

namespace Report

def ofTree? (tree : Tree) : Option Report := do
  let manifests ← (← (← tree.member? "manifests").items?).mapM ManifestReport.ofTree?
  let summary ← Summary.ofTree? (← tree.member? "summary")
  return ⟨manifests, summary⟩

/-- The report that a document gives. -/
def ofDocument? (text : String) : Option Report := (Json.parse? text.toList).bind ofTree?

end Report

end ManifestLint
