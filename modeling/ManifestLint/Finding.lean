/-!
# Findings

What a rule reports about a manifest: how grave it is, which rule found it, where, and in what
words.
-/

namespace ManifestLint

/-- How grave a finding is. -/
inductive Severity where
  | warning
  | info
  deriving DecidableEq, Repr

/-- The word that reports use for a severity. -/
def Severity.name : Severity → String
  | .warning => "WARNING"
  | .info => "INFO"

/-- One remark of the rule `rule`. It is about the line numbered `line`, counted from one, or about
the manifest as a whole. -/
structure Finding where
  severity : Severity
  rule : String
  line : Option Nat
  message : String
  deriving DecidableEq, Repr

namespace Finding

/-- The severity in brackets. -/
def tag (finding : Finding) : String := "[" ++ finding.severity.name ++ "]"

/-- The finding on one line: tag, space, message. -/
def text (finding : Finding) : String := finding.tag ++ " " ++ finding.message

end Finding

end ManifestLint
