import ManifestLint.Reader
import ManifestLint.Text.Digits
import ManifestLint.Yaml.Source
import ManifestLint.Yaml.Token

/-!
# YAML scalars

The three ways to write a scalar: plain, between quotes, and as a block of lines. Line breaks inside
the first two are folded: a single one is a space, and of several the first is dropped.
-/

namespace ManifestLint.Yaml

open Reader

/-- The next character; at the end of the source, its mark. -/
def peekChar : Reader Glyph Char := fun input =>
  some (((input.head?).map (·.char)).getD endMark, input)

def peekSecond : Reader Glyph Char := fun input =>
  some (((input[1]?).map (·.char)).getD endMark, input)

def column : Reader Glyph Nat := fun input => some (((input.head?).map (·.column)).getD 0, input)

def nextChar : Reader Glyph Char := do return (← next).char

def runChars (p : Char → Bool) : Reader Glyph (List Char) := do
  return (← run fun glyph => p glyph.char).map (·.char)

/-- Takes the next character if it is this one, and says whether it was. -/
def acceptChar (c : Char) : Reader Glyph Bool := do
  if (← peekChar) = c then
    let _ ← next
    return true
  else
    return false

/-- Whether three dashes or three dots open the next line, by themselves. -/
def atDocumentMark (mark : Char) : Reader Glyph Bool := fun input =>
  match input with
  | a :: b :: c :: d :: _ =>
    some (a.column == 0 && a.char == mark && b.char == mark && c.char == mark && isGapOrEnd d.char, input)
  | _ => some (false, input)

/-- The blanks or line breaks between two words of a scalar. -/
inductive Space where
  | gap (blanks : List Char)
  | lines (first : List Char) (others : List Char)

/-- What space comes to: blanks stay, one line feed is a space, and of more the first is dropped. -/
def Space.folded : Space → List Char
  | .gap blanks => blanks
  | .lines first others =>
    if first = ['\n'] then (if others.isEmpty then [' '] else others) else first ++ others

def Space.hasLines : Space → Bool
  | .gap _ => false
  | .lines _ _ => true

/-- Reads blanks and line breaks on from some space. Blanks at the beginning of a line do not count;
a tab among them fails if `tabAllowed` denies its column. -/
def readSpace (tabAllowed : Nat → Bool) (space : Space) : Reader Glyph Space :=
  iterate (fun space : Space => do
    let c ← peekChar
    if isGap c then
      match space with
      | .gap blanks => do
        let _ ← next
        return .inl (.gap (blanks ++ [c]))
      | .lines _ _ => do
        guard (c != '\t' || tabAllowed (← column))
        let _ ← next
        return .inl space
    else if isBreak c then
      let _ ← next
      match space with
      | .gap _ => return .inl (.lines [c] [])
      | .lines first others => return .inl (.lines first (others ++ [c]))
    else
      return .inr space) space

/-! ## Plain scalars -/

/-- An indicator that ends a plain scalar inside brackets or braces. -/
def isFlowIndicator (c : Char) : Bool :=
  c == ',' || c == '[' || c == ']' || c == '\x7b' || c == '\x7d'

/-- The characters of a plain scalar up to a blank, a break or an indicator that ends it. -/
def plainWord (flow : Bool) : Reader Glyph (List Char) :=
  iterate (fun word : List Char => do
    let c ← peekChar
    let d ← peekSecond
    if isGapOrEnd c then return .inr word.reverse
    guard !(flow && c == ':' && (isFlowIndicator d || d == '?'))
    if (c == ':' && isGapOrEnd d) || (flow && isFlowIndicator c) then return .inr word.reverse
    let _ ← next
    return .inl (c :: word)) []

/-- A plain scalar in a block at `indent`, and whether line breaks follow it. It ends at a comment, at
an indicator, at a document mark, and outside of brackets at a line that is not further in. -/
def plainScalar (flow : Bool) (indent : Int) : Reader Glyph (List Char × Bool) :=
  iterate (fun (state : List Char × Space) => do
    let (text, space) := state
    let finished : (List Char × Space) ⊕ (List Char × Bool) := .inr (text, space.hasLines)
    if (← atDocumentMark '-') || (← atDocumentMark '.') || (← peekChar) = '#' then return finished
    let word ← plainWord flow
    let (text, space) :=
      if word.isEmpty then (text, space) else (text ++ space.folded ++ word, Space.gap [])
    let finished : (List Char × Space) ⊕ (List Char × Bool) := .inr (text, space.hasLines)
    let c ← peekChar
    if !(isGap c || isBreak c) then return finished
    let space ← readSpace (fun column => indent < column) space
    if !flow && ((← column) : Int) ≤ indent then return .inr (text, space.hasLines)
    return .inl (text, space)) ([], .gap [])

/-! ## Quoted scalars -/

def codePoint (count : Nat) : Reader Glyph Char := do
  let digits ← take count
  let some code := Text.ofDigits? 16 (digits.map (·.char)) | failure
  let some c := Text.charOfCode? code | failure
  return c

/-- What an escape stands for, behind its backslash. -/
def escape : Reader Glyph Char := do
  match ← nextChar with
  | '0' => return '\x00'
  | 'a' => return '\x07'
  | 'b' => return '\x08'
  | 't' | '\t' => return '\t'
  | 'n' => return '\n'
  | 'v' => return '\x0b'
  | 'f' => return '\x0c'
  | 'r' => return '\r'
  | 'e' => return '\x1b'
  | ' ' => return ' '
  | '"' => return '"'
  | '/' => return '/'
  | '\\' => return '\\'
  | 'N' => return '\u0085'
  | '_' => return '\u00a0'
  | 'L' => return '\u2028'
  | 'P' => return '\u2029'
  | 'x' => codePoint 2
  | 'u' => codePoint 4
  | 'U' => codePoint 8
  | _ => failure

inductive WordEnd where
  | space
  | quote
  | escapedBreak

/-- The characters of a scalar in single quotes up to a blank, a break or the closing quote. Two
quotes stand for one. -/
def singleQuotedWord : Reader Glyph (List Char × WordEnd) :=
  iterate (fun word : List Char => do
    let c ← peekChar
    if isGapOrEnd c then return .inr (word.reverse, .space)
    if c = '\'' then
      if (← peekSecond) = '\'' then
        let _ ← take 2
        return .inl ('\'' :: word)
      return .inr (word.reverse, .quote)
    let _ ← next
    return .inl (c :: word)) []

/-- The characters of a scalar in double quotes up to a blank, a break or the closing quote. A
backslash before a break takes it away. -/
def doubleQuotedWord : Reader Glyph (List Char × WordEnd) :=
  iterate (fun word : List Char => do
    let c ← peekChar
    if isGapOrEnd c then return .inr (word.reverse, .space)
    if c = '"' then return .inr (word.reverse, .quote)
    if c = '\\' then
      let _ ← next
      if isBreak (← peekChar) then
        let _ ← next
        return .inr (word.reverse, .escapedBreak)
      return .inl ((← escape) :: word)
    let _ ← next
    return .inl (c :: word)) []

/-- A quoted scalar from its opening quote on, by the reader of its words. No document mark may stand
inside it. -/
def quotedScalar (quote : Char) (readWord : Reader Glyph (List Char × WordEnd)) :
    Reader Glyph (List Char) := do
  let _ ← next
  iterate (fun text : List Char => do
    guard !((← atDocumentMark '-') || (← atDocumentMark '.'))
    guard !isEnd (← peekChar)
    let (word, wordEnd) ← readWord
    let text := text ++ word
    if (← peekChar) = quote then
      let _ ← next
      return .inr text
    let space ← readSpace (fun _ => true) <|
      match wordEnd with
      | .escapedBreak => .lines [] []
      | _ => .gap []
    return .inl (text ++ space.folded)) []

/-! ## Block scalars -/

/-- What becomes of the breaks at the end of a block scalar. -/
inductive Chomping where
  | strip
  | clip
  | keep
  deriving DecidableEq

/-- The sign that names a way of chomping, if one comes next. -/
def chompingSign : Reader Glyph (Option Chomping) := do
  if ← acceptChar '-' then return some .strip
  if ← acceptChar '+' then return some .keep
  return none

/-- The digit that names an indent, if one comes next. It may not be zero. -/
def indentDigit : Reader Glyph (Option Nat) := do
  match Text.digitValue? 10 (← peekChar) with
  | none => return none
  | some digit => do
    guard (digit != 0)
    let _ ← next
    return some digit

/-- The signs behind the indicator of a block scalar, in either order, and the end of their line. -/
def blockHeader : Reader Glyph (Chomping × Option Nat) := do
  let before ← chompingSign
  let digit ← indentDigit
  let after ← if before.isNone && digit.isSome then chompingSign else pure none
  let _ ← runChars isGap
  if (← peekChar) = '#' then
    let _ ← runChars (!isBreakOrEnd ·)
  let c ← peekChar
  guard (isBreakOrEnd c)
  if isBreak c then
    let _ ← next
  return ((before <|> after).getD .clip, digit)

/-- Empty lines of a block scalar, and spaces before its next line up to the indent, if it is known.
Gives the breaks, and how far in the spaces went at most. -/
def emptyLines (indent : Option Nat) : Reader Glyph (List Char × Nat) :=
  iterate (fun (state : List Char × Nat) => do
    let (breaks, deepest) := state
    let _ ← run fun glyph => glyph.char == ' ' && indent.all (glyph.column < ·)
    let c ← peekChar
    let here ← column
    let deepest := max deepest here
    guard !(c == '\t' && indent.all (here < ·))
    if isBreak c then
      let _ ← next
      return .inl (breaks ++ [c], deepest)
    return .inr (breaks, deepest)) ([], 0)

/-- The lines of a block scalar so far: the text, the break of the last line, the breaks of empty
lines after it, and whether the last line began with a blank. -/
structure BlockLines where
  text : List Char
  lastBreak : List Char
  emptyBreaks : List Char
  blank : Bool

/-- A block scalar from its indicator on, in a block at `parent`. The first line that is not empty
fixes the indent, unless a digit does. A folded scalar joins two lines neither of which begins with a
blank. -/
def blockScalar (literal : Bool) (parent : Int) : Reader Glyph (List Char) := do
  let _ ← next
  let (chomping, digit) ← blockHeader
  let fixed := digit.map fun n => if parent < 0 then n else parent.toNat + n
  let (breaks, deepest) ← emptyLines fixed
  let indent := fixed.getD (max (max deepest (parent + 1).toNat) 1)
  let lines ← iterate (fun lines : BlockLines => do
    let c ← peekChar
    if (← column) != indent || isEnd c then return .inr lines
    let joint :=
      if !literal && lines.lastBreak == ['\n'] && !lines.blank && !isGap c then
        (if lines.emptyBreaks.isEmpty then [' '] else []) ++ lines.emptyBreaks
      else
        lines.lastBreak ++ lines.emptyBreaks
    let line ← runChars (!isBreakOrEnd ·)
    let lastBreak ← if isBreak (← peekChar) then (do return [← nextChar]) else pure []
    let (emptyBreaks, _) ← emptyLines (some indent)
    return .inl ⟨lines.text ++ joint ++ line, lastBreak, emptyBreaks, isGap c⟩) ⟨[], [], breaks, false⟩
  return lines.text ++ (if chomping = .strip then [] else lines.lastBreak) ++
    (if chomping = .keep then lines.emptyBreaks else [])

end ManifestLint.Yaml
