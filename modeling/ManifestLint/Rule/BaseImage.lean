import ManifestLint.Rule.Basic
import ManifestLint.Text.Lowercase

/-!
# Base images

A base image should name a version, and one built from nothing deserves a second look. The keyword
counts only at the very start of a line and in capitals; what follows is searched without regard to
case.
-/

namespace ManifestLint.Rule.BaseImage

def id : String := "base-image-tag"

/-- The finding on an image whose tag follows the newest version. -/
def latest (number : Nat) : Finding :=
  ⟨.warning, id, some number, "Base image uses 'latest' tag. Use specific versions."⟩

def scratch (number : Nat) : Finding :=
  ⟨.info, id, some number, "Base image is 'scratch'. Ensure minimal image is needed."⟩

def checkLine (number : Nat) (line : String) : List Finding :=
  if opensWith "FROM" line.toList then
    let lowered := Text.lowercase line.toList
    (if Text.contains "latest".toList lowered then [latest number] else []) ++
      (if Text.contains "scratch".toList lowered then [scratch number] else [])
  else
    []

def rule : Rule where
  id := id
  summary := "FROM lines must not use the 'latest' tag; flags 'scratch' base images"
  check := checkEach checkLine 1

end ManifestLint.Rule.BaseImage
