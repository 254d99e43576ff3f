import ManifestLint.Rule.AddOrCopy
import ManifestLint.Rule.BaseImage
import ManifestLint.Rule.NonRootUser

/-!
# The registry

The rules there are, in the order in which they run and report, and the list of them that is shown
to a user.
-/

namespace ManifestLint.Rule

def registry : List Rule := [BaseImage.rule, NonRootUser.rule, AddOrCopy.rule]

/-- The findings of all rules, rule by rule. -/
def checkAll (lines : List String) : List Finding := registry.flatMap (·.check lines)

def find? (id : String) : Option Rule := registry.find? (·.id == id)

/-- The length of the longest name. -/
def idWidth (rules : List Rule) : Nat := (rules.map (·.id.length)).foldl max 0

/-- One line for each rule: its name, filled up with spaces to the length of the longest name, two
more spaces, and what it asks for. -/
def listing (rules : List Rule) : String :=
  String.join <| rules.map fun rule =>
    String.ofList (rule.id.toList.rightpad (idWidth rules) ' ') ++ "  " ++ rule.summary ++ "\n"

end ManifestLint.Rule
