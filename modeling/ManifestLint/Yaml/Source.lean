/-!
# Source of a YAML stream

The characters of a stream with their places, ready to be read: every kind of line feed has become
one, and a mark that no text can hold stands at the end.
-/

namespace ManifestLint.Yaml

def endMark : Char := '\x00'

def isEnd (c : Char) : Bool := c == endMark

def isGap (c : Char) : Bool := c == ' ' || c == '\t'

/-- A character that ends a line, once line feeds are alike. -/
def isBreak (c : Char) : Bool := c == '\n' || c == '\u2028' || c == '\u2029'

def isBreakOrEnd (c : Char) : Bool := isBreak c || isEnd c

/-- A character behind which a new word begins. -/
def isGapOrEnd (c : Char) : Bool := isGap c || isBreakOrEnd c

/-- A character of the names of anchors, handles and directives. -/
def isWordChar (c : Char) : Bool :=
  ('0' ≤ c && c ≤ '9') || ('a' ≤ c && c ≤ 'z') || ('A' ≤ c && c ≤ 'Z') || c == '_' || c == '-'

/-- The characters that a stream may hold. -/
def isAllowed (c : Char) : Bool :=
  c == '\t' || c == '\n' || c == '\r' || (' ' ≤ c && c ≤ '~') || c == '\u0085' ||
  ('\u00a0' ≤ c && c != '\ufffe' && c != '\uffff')

structure Glyph where
  char : Char
  line : Nat
  column : Nat
  deriving DecidableEq, Repr

/-- The text with one line feed for each carriage return, for each next line, and for both of a
carriage return and a line feed. -/
def unifyBreaks : List Char → List Char
  | [] => []
  | '\r' :: '\n' :: rest => '\n' :: unifyBreaks rest
  | c :: rest => (if c = '\r' ∨ c = '\u0085' then '\n' else c) :: unifyBreaks rest

/-- The characters with their places, from the place of the first on, and the mark at the end. -/
def glyphsFrom (line column : Nat) : List Char → List Glyph
  | [] => [⟨endMark, line, column⟩]
  | c :: rest =>
    ⟨c, line, column⟩ ::
      if isBreak c then glyphsFrom (line + 1) 0 rest else glyphsFrom line (column + 1) rest

/-- The source of a stream, unless it holds a character that it may not. A byte order mark may open
it; a second one is passed over but takes up a column. -/
def source? (text : List Char) : Option (List Glyph) :=
  let text :=
    match text with
    | '\ufeff' :: rest => rest
    | _ => text
  if text.all isAllowed then
    match unifyBreaks text with
    | '\ufeff' :: rest => some (glyphsFrom 0 1 rest)
    | text => some (glyphsFrom 0 0 text)
  else
    none

end ManifestLint.Yaml
