import ManifestLint.Reader
import ManifestLint.Text.Segments

/-!
# Path patterns

A pattern is a path whose segments may hold wildcards: `?` for one character, `*` for any number,
brackets for one of some characters, or for one that is none of them. A segment of two stars stands
for any number of directories. Wildcards do not reach across slashes, and nothing escapes them.
-/

namespace ManifestLint.Glob

structure CharRange where
  first : Char
  last : Char
  deriving DecidableEq, Repr

def CharRange.contains (range : CharRange) (c : Char) : Bool := range.first ≤ c && c ≤ range.last

inductive Token where
  | char (c : Char)
  | anyChar
  | anyText
  | oneOf (negated : Bool) (ranges : List CharRange)
  deriving DecidableEq, Repr

/-- A segment of a pattern: a name, wildcards, or any number of directories. -/
inductive Segment where
  | name (text : List Char)
  | wild (tokens : List Token)
  | anyDepth
  deriving DecidableEq, Repr

/-- The ranges between two brackets. A dash between two characters makes a range of them. -/
def ranges : List Char → List CharRange
  | first :: '-' :: last :: rest => ⟨first, last⟩ :: ranges rest
  | c :: rest => ⟨c, c⟩ :: ranges rest
  | [] => []

/-- The rest of a class of characters, behind its opening bracket. Its first character is always one
of the class, even a closing bracket. -/
def charClass : Reader Char Token := do
  let negated ← Reader.accept ['!']
  let first ← Reader.next
  let others ← Reader.run (· != ']')
  Reader.expect [']']
  return .oneOf negated (ranges (first :: others))

/-- The parts of a segment. Two stars can only be a segment of their own. -/
def segmentTokens : Reader Char (List Token) :=
  Reader.iterate (fun tokens : List Token => do
    if ← Reader.atEnd then return .inr tokens.reverse
    match ← Reader.next with
    | '?' => return .inl (.anyChar :: tokens)
    | '*' => do
      guard ((← Reader.peek?) != some '*')
      return .inl (.anyText :: tokens)
    | '[' => return .inl ((← charClass) :: tokens)
    | c => return .inl (.char c :: tokens)) []

/-- The character that a part stands for, if it stands for itself. -/
def Token.char? : Token → Option Char
  | .char c => some c
  | _ => none

def Segment.ofChars? (text : List Char) : Option Segment :=
  if text = ['*', '*'] then some .anyDepth
  else
    (Reader.readAll? segmentTokens text).map fun tokens =>
      match tokens.mapM Token.char? with
      | some literal => .name literal
      | none => .wild tokens

/-- A pattern by its segments. It starts at the top of the tree or at the working directory, and may
ask for directories by a slash at its end. -/
structure Pattern where
  absolute : Bool
  segments : List Segment
  directoriesOnly : Bool
  deriving DecidableEq, Repr

/-- The segments without those that only repeat that there may be any number of directories. -/
def collapse : List Segment → List Segment
  | .anyDepth :: .anyDepth :: rest => collapse (.anyDepth :: rest)
  | segment :: rest => segment :: collapse rest
  | [] => []

/-- The texts between slashes, less an empty one at the end; there is at least one. -/
def segmentTexts (text : List Char) : List (List Char) :=
  let texts := Text.segments '/' text
  if texts.getLast? = some [] ∧ 1 < texts.length then texts.dropLast else texts

def Pattern.ofString? (text : String) : Option Pattern := do
  let chars := text.toList
  let absolute := chars.head? == some '/'
  let segments ← (segmentTexts (if absolute then chars.drop 1 else chars)).mapM Segment.ofChars?
  return ⟨absolute, collapse segments, chars.getLast? == some '/'⟩

end ManifestLint.Glob
