import ManifestLint.Glob.Pattern

/-!
# Matching names

Whether a name is one that a segment of a pattern stands for, character by character and with regard
to case.
-/

namespace ManifestLint.Glob

/-- Whether a part other than any text stands for a character. -/
def Token.accepts (token : Token) (c : Char) : Bool :=
  match token with
  | .char d => c == d
  | .anyChar => true
  | .anyText => false
  | .oneOf negated ranges => (ranges.any (·.contains c)) != negated

/-- Whether a name is made of what the parts stand for, in order. -/
def matchesTokens : List Token → List Char → Bool
  | [], name => name.isEmpty
  | .anyText :: tokens, [] => matchesTokens tokens []
  | .anyText :: tokens, c :: name =>
    matchesTokens tokens (c :: name) || matchesTokens (.anyText :: tokens) name
  | _ :: _, [] => false
  | token :: tokens, c :: name => token.accepts c && matchesTokens tokens name
termination_by tokens name => tokens.length + name.length

/-- Whether a segment stands for a name. -/
def Segment.accepts (name : String) : Segment → Bool
  | .name text => name.toList == text
  | .wild tokens => matchesTokens tokens name.toList
  | .anyDepth => false

end ManifestLint.Glob
