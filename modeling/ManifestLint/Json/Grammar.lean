import ManifestLint.Text.Digits

/-!
# The grammar of JSON

Which texts are JSON, and what they say: `Spells tree text` holds if the text is one way to write
the tree, without blanks around it. Blanks may stand around every part. A number is kept as it is
written, and an object as its members in order.
-/

namespace ManifestLint.Json

inductive Tree where
  | null
  | boolean (value : Bool)
  | number (literal : List Char)
  | string (text : String)
  | array (items : List Tree)
  | object (members : List (String × Tree))

def isBlank (c : Char) : Bool := c == ' ' || c == '\t' || c == '\n' || c == '\r'

/-- Characters that may stand around any part. -/
def Blank (text : List Char) : Prop := ∀ c ∈ text, isBlank c = true

/-! ## Numbers -/

def IsDigits (text : List Char) : Prop := text ≠ [] ∧ ∀ c ∈ text, c.isDigit = true

/-- The whole part of a number has no zero before other digits. -/
inductive Whole : List Char → Prop
  | zero : Whole ['0']
  | digits {text : List Char} (digits : IsDigits text) (first : text.head? ≠ some '0') : Whole text

inductive Fraction : List Char → Prop
  | none : Fraction []
  | digits {text : List Char} (digits : IsDigits text) : Fraction ('.' :: text)

inductive Exponent : List Char → Prop
  | none : Exponent []
  | digits {mark : Char} {sign text : List Char} (mark_mem : mark ∈ ['e', 'E'])
      (sign_mem : sign ∈ [[], ['+'], ['-']]) (digits : IsDigits text) :
      Exponent (mark :: sign ++ text)

inductive Number : List Char → Prop
  | mk {sign whole fraction exponent : List Char} (sign_mem : sign ∈ [[], ['-']]) (whole_ok : Whole whole)
      (fraction_ok : Fraction fraction) (exponent_ok : Exponent exponent) :
      Number (sign ++ whole ++ fraction ++ exponent)

/-! ## Strings -/

/-- The letters that stand behind a backslash for one character. -/
def shortEscapes : List (Char × Char) :=
  [('"', '"'), ('\\', '\\'), ('/', '/'), ('b', '\x08'), ('f', '\x0c'), ('n', '\n'), ('r', '\r'),
    ('t', '\t')]

/-- Whether a character stands for itself in a string. -/
def standsForItself (c : Char) : Bool := 0x20 ≤ c.toNat && c != '"' && c != '\\'

/-- Four digits of base sixteen that stand for a number. -/
def FourDigits (code : Nat) (text : List Char) : Prop :=
  text.length = 4 ∧ Text.ofDigits? 16 text = some code

/-- One character, as it may be written in a string. One that is too large for four digits is written
as two halves. -/
inductive Written : Char → List Char → Prop
  | itself {c : Char} (plain : standsForItself c = true) : Written c [c]
  | short {letter c : Char} (listed : (letter, c) ∈ shortEscapes) : Written c ['\\', letter]
  | code {c : Char} {text : List Char} (digits : FourDigits c.toNat text) :
      Written c ('\\' :: 'u' :: text)
  | halves {c : Char} {first second : Nat} {high low : List Char} (upper : FourDigits first high)
      (lower : FourDigits second low) (isFirst : 0xD800 ≤ first ∧ first < 0xDC00)
      (isSecond : 0xDC00 ≤ second ∧ second < 0xE000)
      (sum : c.toNat = 0x10000 + (first - 0xD800) * 0x400 + (second - 0xDC00)) :
      Written c ('\\' :: 'u' :: high ++ '\\' :: 'u' :: low)

/-- Some characters, written one after the other. -/
inductive Characters : List Char → List Char → Prop
  | nil : Characters [] []
  | cons {c : Char} {written : List Char} {rest text : List Char} (first : Written c written)
      (more : Characters rest text) : Characters (c :: rest) (written ++ text)

inductive Quoted : String → List Char → Prop
  | mk {content : String} {text : List Char} (characters : Characters content.toList text) :
      Quoted content ('"' :: text ++ ['"'])

/-! ## Arrays and objects -/

section

variable {α : Type} (P : α → List Char → Prop)

/-- One part or more, with commas between them. -/
inductive Listed : List α → List Char → Prop
  | last {part : α} {before text after : List Char} (blankBefore : Blank before)
      (spelled : P part text) (blankAfter : Blank after) : Listed [part] (before ++ text ++ after)
  | cons {part : α} {parts : List α} {before text after later : List Char}
      (blankBefore : Blank before) (spelled : P part text) (blankAfter : Blank after)
      (more : Listed parts later) : Listed (part :: parts) (before ++ text ++ after ++ ',' :: later)

/-- Parts between brackets. -/
inductive Bracketed (opening closing : Char) : List α → List Char → Prop
  | empty {text : List Char} (blank : Blank text) :
      Bracketed opening closing [] (opening :: text ++ [closing])
  | full {parts : List α} {text : List Char} (listed : Listed P parts text) :
      Bracketed opening closing parts (opening :: text ++ [closing])

/-- A key and what belongs to it, with a colon between them. -/
inductive Member : String × α → List Char → Prop
  | mk {key : String} {value : α} {name before after text : List Char} (quoted : Quoted key name)
      (blankBefore : Blank before) (blankAfter : Blank after) (spelled : P value text) :
      Member (key, value) (name ++ before ++ ':' :: after ++ text)

end

inductive Spells : Tree → List Char → Prop
  | null : Spells .null "null".toList
  | true : Spells (.boolean true) "true".toList
  | false : Spells (.boolean false) "false".toList
  | number {literal : List Char} (number : Number literal) : Spells (.number literal) literal
  | string {content : String} {text : List Char} (quoted : Quoted content text) :
      Spells (.string content) text
  | array {items : List Tree} {text : List Char} (bracketed : Bracketed Spells '[' ']' items text) :
      Spells (.array items) text
  | object {members : List (String × Tree)} {text : List Char}
      (bracketed : Bracketed (Member Spells) '\x7b' '\x7d' members text) :
      Spells (.object members) text

end ManifestLint.Json
