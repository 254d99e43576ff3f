/-!
# JSON

The values of JSON, as far as reports have them, and the text of a value over several lines: two
spaces of indent for each level, one item or member a line, and a space after the colon. An empty
array or object stays on its line.
-/

namespace ManifestLint

/-- Numbers are natural, and an object keeps its members in order. -/
inductive Json where
  | null
  | number (value : Nat)
  | string (value : String)
  | array (items : List Json)
  | object (members : List (String × Json))
  deriving Repr

namespace Json

def hexDigit (n : Nat) : Char := Nat.digitChar n

/-- A character inside a string. The quote, the backslash and the control characters of ASCII are
escaped, and all others stand for themselves. -/
def escapeChar (c : Char) : List Char :=
  if c = '"' then ['\\', '"']
  else if c = '\\' then ['\\', '\\']
  else if c = '\x08' then ['\\', 'b']
  else if c = '\t' then ['\\', 't']
  else if c = '\n' then ['\\', 'n']
  else if c = '\x0c' then ['\\', 'f']
  else if c = '\r' then ['\\', 'r']
  else if c.toNat < 0x20 then ['\\', 'u', '0', '0', hexDigit (c.toNat / 16), hexDigit (c.toNat % 16)]
  else [c]

/-- A string between its quotes. -/
def quote (text : String) : List Char := '"' :: text.toList.flatMap escapeChar ++ ['"']

/-- A new line at a level of indent. -/
def lineAt (level : Nat) : List Char := '\n' :: List.replicate (2 * level) ' '

/-- The parts between an opening and a closing bracket, each on a line one level further in. -/
def block (opening closing : Char) (level : Nat) : List (List Char) → List Char
  | [] => [opening, closing]
  | part :: rest =>
    opening :: lineAt (level + 1) ++ part ++ rest.flatMap (fun p => ',' :: lineAt (level + 1) ++ p) ++
      lineAt level ++ [closing]

mutual

/-- The text of a value that begins on a line at this level of indent. -/
def chars (level : Nat) : Json → List Char
  | .null => "null".toList
  | .number value => Nat.toDigits 10 value
  | .string value => quote value
  | .array items => block '[' ']' level (itemChars (level + 1) items)
  | .object members => block '\x7b' '\x7d' level (memberChars (level + 1) members)

/-- The texts of the items of an array. -/
def itemChars (level : Nat) : List Json → List (List Char)
  | [] => []
  | item :: rest => chars level item :: itemChars level rest

/-- The texts of the members of an object. -/
def memberChars (level : Nat) : List (String × Json) → List (List Char)
  | [] => []
  | (key, value) :: rest =>
    (quote key ++ ':' :: ' ' :: chars level value) :: memberChars level rest

end

/-- The text of a value over several lines. -/
def pretty (value : Json) : String := String.ofList (value.chars 0)

end Json

end ManifestLint
