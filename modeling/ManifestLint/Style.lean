/-!
# Styles

The graphic modes that a terminal is put in for a text, by their control sequences.
-/

namespace ManifestLint

/-- A graphic mode: the code that turns it on and the code that turns it off. -/
structure Style where
  on : String
  off : String
  deriving DecidableEq, Repr

namespace Style

def bold : Style := ⟨"1", "0"⟩
def red : Style := ⟨"31", "39"⟩
def yellow : Style := ⟨"33", "39"⟩
def blue : Style := ⟨"34", "39"⟩

def controlSequence (code : String) : String := "\x1b[" ++ code ++ "m"

/-- The text between the two control sequences of a style. -/
def apply (style : Style) (text : String) : String :=
  controlSequence style.on ++ text ++ controlSequence style.off

end Style

end ManifestLint
