import ManifestLint.Finding

/-!
# Rules

A rule looks at the lines of a manifest as plain text and reports findings. A rule on single lines
is given by what it says of one line, and sees each line with its number, counted from one.
-/

namespace ManifestLint

/-- Whether `word` stands in `text` as consecutive characters. -/
def Text.contains (word : List Char) : List Char → Bool
  | [] => word.isEmpty
  | c :: rest => word.isPrefixOf (c :: rest) || contains word rest

theorem Text.contains_iff_isInfix {word text : List Char} :
    contains word text = true ↔ word <:+: text := by
  induction text with
  | nil => simp [contains]
  | cons c rest ih => simp [contains, ih, List.infix_cons_iff]

structure Rule where
  id : String
  summary : String
  check : List String → List Finding

namespace Rule

/-- The findings of a rule on single lines, in the order of the lines, where the first line has the
number `first`. -/
def checkEach (checkLine : Nat → String → List Finding) (first : Nat) : List String → List Finding
  | [] => []
  | line :: rest => checkLine first line ++ checkEach checkLine (first + 1) rest

/-- Whether a line begins with a word, as it stands. -/
def opensWith (word : String) (line : List Char) : Bool := word.toList.isPrefixOf line

end Rule

end ManifestLint
