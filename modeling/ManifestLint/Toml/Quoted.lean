import ManifestLint.Text.Digits
import ManifestLint.Reader

/-!
# Quoted texts of TOML

A text in double quotes may hold escapes, one in single quotes holds itself. Three quotes open a text
that may run over several lines; a line break right behind them does not count.
-/

namespace ManifestLint.Toml

open Text Reader

/-- A character that may stand in a comment or a quoted text as it is: none of the control
characters of ASCII, save the tab. -/
def isPlain (c : Char) : Bool := c == '\t' || (' ' ≤ c && c != '\x7f')

def isGap (c : Char) : Bool := c == ' ' || c == '\t'

/-- A line break: a line feed, or a carriage return and a line feed. -/
def lineBreak : Reader Char Unit := do
  let _ ← accept ['\r']
  expect ['\n']

/-- Takes a line break if one comes next, and says whether it did. -/
def acceptLineBreak : Reader Char Bool := do
  if ← accept ['\n'] then return true
  accept ['\r', '\n']

def codePoint (count : Nat) : Reader Char Char := do
  let some code := ofDigits? 16 (← take count) | failure
  let some c := charOfCode? code | failure
  return c

/-- What an escape stands for, behind its backslash. -/
def escape : Reader Char Char := do
  match ← next with
  | 'b' => return '\x08'
  | 't' => return '\t'
  | 'n' => return '\n'
  | 'f' => return '\x0c'
  | 'r' => return '\r'
  | 'e' => return '\x1b'
  | '"' => return '"'
  | '\\' => return '\\'
  | 'x' => codePoint 2
  | 'u' => codePoint 4
  | 'U' => codePoint 8
  | _ => failure

def basicText : Reader Char String :=
  iterate (fun text : List Char => do
    match ← next with
    | '"' => return .inr (String.ofList text.reverse)
    | '\\' => return .inl ((← escape) :: text)
    | c => do
      guard (isPlain c)
      return .inl (c :: text)) []

def literalText : Reader Char String := do
  let text ← run fun c => isPlain c && c != '\''
  expect ['\'']
  return String.ofList text

/-- The text and line breaks read so far, with the quotes that stand before the closing three. -/
def closeLines (quote : Char) (text : List Char) : Reader Char String := do
  let quotes ← run (· == quote)
  guard (quotes.length ≤ 2)
  return String.ofList (text.reverse ++ quotes)

/-- A character of a text over several lines: a plain one, or a line break as it is. -/
def lineChar (text : List Char) : Reader Char (List Char) := do
  if ← accept ['\r', '\n'] then return '\n' :: '\r' :: text
  let c ← next
  guard (isPlain c || c == '\n')
  return c :: text

/-- Passes over all blanks and line breaks behind a backslash at the end of a line. There must be a
line break before anything but a blank. -/
def lineContinuation : Reader Char Unit := do
  let _ ← run isGap
  lineBreak
  iterate (fun _ : Unit => do
    let gap ← run isGap
    if (← acceptLineBreak) || !gap.isEmpty then return .inl () else return .inr ()) ()

/-- The rest of a text over several lines in double quotes, behind the opening three. -/
def basicLines : Reader Char String := do
  let _ ← acceptLineBreak
  iterate (fun text : List Char => do
    if ← accept ['"', '"', '"'] then return .inr (← closeLines '"' text)
    if ← accept ['\\'] then
      match ← peek? with
      | some ' ' | some '\t' | some '\n' | some '\r' => do
        lineContinuation
        return .inl text
      | _ => return .inl ((← escape) :: text)
    return .inl (← lineChar text)) []

/-- The rest of a text over several lines in single quotes, behind the opening three. -/
def literalLines : Reader Char String := do
  let _ ← acceptLineBreak
  iterate (fun text : List Char => do
    if ← accept ['\'', '\'', '\''] then return .inr (← closeLines '\'' text)
    return .inl (← lineChar text)) []

def quotedText : Reader Char String := do
  if ← accept ['"', '"', '"'] then basicLines
  else if ← accept ['\'', '\'', '\''] then literalLines
  else if ← accept ['"'] then basicText
  else do
    expect ['\'']
    literalText

end ManifestLint.Toml
