import ManifestLint.Toml.Assembly
import ManifestLint.Toml.Quoted
import ManifestLint.Toml.Scalar

/-!
# TOML documents

The grammar of a document: lines that assign, lines that open a table, and blank lines, each perhaps
with a comment. Arrays and inline tables may run over several lines and end in a comma, and may be
nested up to a depth.
-/

namespace ManifestLint.Toml

open Text Reader

def comment : Reader Char Unit := do
  expect ['#']
  let _ ← run isPlain

/-- The blanks, line breaks and comments between the parts of an array or inline table. -/
def filler : Reader Char Unit :=
  iterate (fun _ : Unit => do
    let gap ← run isGap
    match ← peek? with
    | some '#' => do
      comment
      return .inl ()
    | _ => if (← acceptLineBreak) || !gap.isEmpty then return .inl () else return .inr ()) ()

/-- What may follow on the line of an assignment or header. -/
def lineEnd : Reader Char Unit := do
  let _ ← run isGap
  if (← peek?) = some '#' then comment
  if ← atEnd then return
  lineBreak

def isBareKeyChar (c : Char) : Bool :=
  isDigit c || ('a' ≤ c && c ≤ 'z') || ('A' ≤ c && c ≤ 'Z') || c == '_' || c == '-'

def simpleKey : Reader Char String := do
  if ← accept ['"'] then basicText
  else if ← accept ['\''] then literalText
  else return String.ofList (← runSome isBareKeyChar)

/-- A key, whose parts stand between dots, with blanks around them. -/
def keyPath : Reader Char KeyPath := do
  iterate (fun way : List String => do
    let _ ← run isGap
    let key ← simpleKey
    let _ ← run isGap
    if ← accept ['.'] then return .inl (key :: way)
    else return .inr ⟨way.reverse, key⟩) []

/-- A scalar without quotes. A date may be followed by a space and a time of day. -/
def unquoted : Reader Char Value := do
  let text ← run isScalarChar
  let time ← (do
    guard (date? text).isSome
    expect [' ']
    guard (((← peek?).map isDigit).getD false)
    run isScalarChar) <|> pure []
  match scalar? (if time.isEmpty then text else text ++ ' ' :: time) with
  | some value => return value
  | none => failure

/-- The rest of an array behind its bracket, where `item` reads an item. -/
def arrayItems (item : Reader Char Value) : Reader Char (List Value) :=
  iterate (fun items : List Value => do
    filler
    if ← accept [']'] then return .inr items.reverse
    let items := (← item) :: items
    filler
    if ← accept [','] then return .inl items
    expect [']']
    return .inr items.reverse) []

/-- The rest of an inline table behind its brace, where `item` reads a value. -/
def inlineAssignments (item : Reader Char Value) : Reader Char (List Assignment) :=
  iterate (fun assignments : List Assignment => do
    filler
    if ← accept ['\x7d'] then return .inr assignments.reverse
    let key ← keyPath
    filler
    expect ['=']
    filler
    let assignments := ⟨key, ← item⟩ :: assignments
    filler
    if ← accept [','] then return .inl assignments
    expect ['\x7d']
    return .inr assignments.reverse) []

/-- A value in which arrays and inline tables are nested no deeper than `depth`. -/
def value (depth : Nat) : Reader Char Value := do
  match ← peek? with
  | some '"' | some '\'' => return .string (← quotedText)
  | some '[' =>
    match depth with
    | 0 => failure
    | depth + 1 => do
      expect ['[']
      return .array (← arrayItems (value depth))
  | some '\x7b' =>
    match depth with
    | 0 => failure
    | depth + 1 => do
      expect ['\x7b']
      match Table.inline? (← inlineAssignments (value depth)) with
      | some table => return .table table
      | none => failure
  | _ => unquoted

def depthLimit : Nat := 80

def assignment : Reader Char Assignment := do
  let key ← keyPath
  expect ['=']
  let _ ← run isGap
  let value ← value depthLimit
  lineEnd
  return ⟨key, value⟩

def header : Reader Char Header := do
  if ← accept ['[', '['] then
    let key ← keyPath
    expect [']', ']']
    lineEnd
    return .item key
  else
    expect ['[']
    let key ← keyPath
    expect [']']
    lineEnd
    return .table key

/-- Assignments and blank lines, up to a header or the end. -/
def assignments : Reader Char (List Assignment) :=
  iterate (fun assignments : List Assignment => do
    let _ ← run isGap
    if ← atEnd then return .inr assignments.reverse
    match ← peek? with
    | some '[' => return .inr assignments.reverse
    | some '#' | some '\n' | some '\r' => do
      lineEnd
      return .inl assignments
    | _ => return .inl ((← assignment) :: assignments)) []

def outline : Reader Char Outline := do
  let top ← assignments
  let sections ← iterate (fun sections : List Section => do
    if ← atEnd then return .inr sections.reverse
    let header ← header
    return .inl (⟨header, ← assignments⟩ :: sections)) []
  return ⟨top, sections⟩

/-- The text without the mark that may open a file. -/
def withoutMark : List Char → List Char
  | '\ufeff' :: rest => rest
  | text => text

/-- The table that a text holds, if it is a document. -/
def parse? (text : String) : Option Table :=
  (readAll? outline (withoutMark text.toList)).bind Outline.table?

end ManifestLint.Toml
