import ManifestLint.Rule.Basic

/-!
# Users other than root

A manifest that never names a user runs its container as root. Any mention counts, wherever it
stands in a line.
-/

namespace ManifestLint.Rule.NonRootUser

def id : String := "non-root-user"

def noUser : Finding :=
  ⟨.warning, id, none, "No USER instruction found. Containers run as root by default."⟩

def check (lines : List String) : List Finding :=
  if lines.any fun line => Text.contains "USER".toList line.toList then [] else [noUser]

def rule : Rule where
  id := id
  summary := "the manifest must contain a USER instruction"
  check := check

end ManifestLint.Rule.NonRootUser
