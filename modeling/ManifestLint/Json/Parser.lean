import ManifestLint.Json.Grammar
import ManifestLint.Reader

/-!
# Reading JSON

The reader of the grammar: one pass from left to right, with the next character deciding.
-/

namespace ManifestLint.Json

open Reader

namespace Parser

def blanks : Reader Char Unit := do
  let _ ← run isBlank

/-! ## Numbers -/

def digits : Reader Char (List Char) := runSome Char.isDigit

def whole : Reader Char (List Char) := do
  if ← accept ['0'] then return ['0']
  digits

def fraction : Reader Char (List Char) := do
  if ← accept ['.'] then return '.' :: (← digits)
  return []

/-- The character, if it comes next. -/
def optional (c : Char) : Reader Char (List Char) := do
  if ← accept [c] then return [c]
  return []

def sign : Reader Char (List Char) := do
  if ← accept ['+'] then return ['+']
  optional '-'

def exponent : Reader Char (List Char) := do
  if ← accept ['e'] then return 'e' :: (← sign) ++ (← digits)
  if ← accept ['E'] then return 'E' :: (← sign) ++ (← digits)
  return []

def number : Reader Char (List Char) := do
  return (← optional '-') ++ (← whole) ++ (← fraction) ++ (← exponent)

/-! ## Strings -/

def fourDigits : Reader Char Nat := do
  let some code := Text.ofDigits? 16 (← take 4) | failure
  return code

/-- What four digits stand for behind the mark of a code, or eight if they are two halves. -/
def codePoint : Reader Char Char := do
  let first ← fourDigits
  let code ← do
    if 0xD800 ≤ first ∧ first < 0xDC00 then
      expect ['\\', 'u']
      let second ← fourDigits
      guard (0xDC00 ≤ second ∧ second < 0xE000)
      pure (0x10000 + (first - 0xD800) * 0x400 + (second - 0xDC00))
    else
      pure first
  let some c := Text.charOfCode? code | failure
  return c

def escape : Reader Char Char := do
  let letter ← next
  if letter = 'u' then
    codePoint
  else
    let some c := shortEscapes.lookup letter | failure
    return c

def character : Reader Char Char := do
  let c ← next
  if c = '\\' then
    escape
  else
    guard (standsForItself c)
    return c

/-- The next character of a string, or its end. -/
def characterStep (taken : List Char) : Reader Char (List Char ⊕ List Char) := do
  if ← accept ['"'] then return .inr taken.reverse
  return .inl ((← character) :: taken)

def quoted : Reader Char String := do
  expect ['"']
  return String.ofList (← iterate characterStep [])

/-! ## Arrays and objects -/

section

variable {α : Type} (part : Reader Char α) (closing : Char)

/-- A part, with the comma or the bracket behind it. -/
def partStep (taken : List α) : Reader Char (List α ⊕ List α) := do
  blanks
  let taken := (← part) :: taken
  blanks
  if ← accept [','] then return .inl taken
  expect [closing]
  return .inr taken.reverse

/-- The parts behind an opening bracket. -/
def bracketed : Reader Char (List α) := fun input =>
  if (input.dropWhile isBlank).head? = some closing then some ([], (input.dropWhile isBlank).drop 1)
  else iterate (partStep part closing) [] input

end

def member {α : Type} (value : Reader Char α) : Reader Char (String × α) := do
  let key ← quoted
  blanks
  expect [':']
  blanks
  return (key, ← value)

/-- A value by its first character, where `inner` reads the values in an array or object. -/
def valueAt (inner : Reader Char Tree) : Option Char → Reader Char Tree
  | some 'n' => do
    expect "null".toList
    return .null
  | some 't' => do
    expect "true".toList
    return .boolean true
  | some 'f' => do
    expect "false".toList
    return .boolean false
  | some '"' => return .string (← quoted)
  | some '[' => do
    expect ['[']
    return .array (← bracketed inner ']')
  | some '\x7b' => do
    expect ['\x7b']
    return .object (← bracketed (member inner) '\x7d')
  | _ => return .number (← number)

/-- A value with at most that many brackets around one another. -/
def value : Nat → Reader Char Tree
  | 0 => failure
  | depth + 1 => do valueAt (value depth) (← peek?)

end Parser

/-- What a text says, with blanks around it. No text has more brackets than characters. -/
def parse? (text : List Char) : Option Tree :=
  readAll? (do
    Parser.blanks
    let tree ← Parser.value text.length
    Parser.blanks
    return tree) text

end ManifestLint.Json
