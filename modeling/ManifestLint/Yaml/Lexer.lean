import ManifestLint.Yaml.Property

/-!
# Tokens of a YAML stream

A stream is cut into tokens from front to back. Two things are known only later: that a word was a
key, when its colon comes, and that a block has ended, when a line stands further out. So a lexer
remembers where keys may have begun, and how far in its blocks are.
-/

namespace ManifestLint.Yaml

open Reader

/-- A place where a key may have begun: before which token, where in the text, and whether there must
be a key, because the block has nothing else there. -/
structure KeyStart where
  token : Nat
  line : Nat
  column : Nat
  required : Bool
  deriving Repr

/-- What is known behind the tokens so far. `keyStart` is the last place in this collection where a
key may have begun, and `outerKeyStarts` are those of the brackets and braces around it; `indent` is
the column of the block, and `outerIndents` are those of the blocks around it. -/
structure Lexer where
  tokens : Array Token
  keyStart : Option KeyStart
  outerKeyStarts : List (Option KeyStart)
  keyAllowed : Bool
  indent : Int
  outerIndents : List Int

namespace Lexer

def initial : Lexer := ⟨#[], none, [], true, -1, []⟩

/-- Whether the place is inside brackets or braces. -/
def inFlow (lexer : Lexer) : Bool := !lexer.outerKeyStarts.isEmpty

def push (lexer : Lexer) (token : Token) : Lexer :=
  { lexer with tokens := lexer.tokens.push token }

/-- How far behind its beginning the colon of a key may come. -/
def keyLimit : Nat := 1024

/-- Whether a key that began there can no longer be one at a place: keys end on their line, and within
a limit. -/
def isStale (line column : Nat) (start : KeyStart) : Bool :=
  start.line < line || start.column + keyLimit < column

/-- Forgets a place where a key may have begun. It fails if there must be a key. -/
def forget (start : Option KeyStart) : Option (Option KeyStart) :=
  if start.any (·.required) then none else some none

/-- Forgets the places at which no key can have begun, seen from a place in the text. -/
def dropStale? (lexer : Lexer) (line column : Nat) : Option Lexer := do
  let check (start : Option KeyStart) : Option (Option KeyStart) :=
    if start.any (isStale line column) then forget start else some start
  let keyStart ← check lexer.keyStart
  let outerKeyStarts ← lexer.outerKeyStarts.mapM check
  return { lexer with keyStart, outerKeyStarts }

/-- Forgets the place in this collection. -/
def dropKeyStart? (lexer : Lexer) : Option Lexer :=
  (forget lexer.keyStart).map fun keyStart => { lexer with keyStart }

/-- Ends the blocks further in than a column. -/
def closeBlocks (lexer : Lexer) (column : Int) : Lexer :=
  if lexer.inFlow then lexer
  else
    let deeper := (lexer.indent :: lexer.outerIndents).takeWhile (column < ·)
    match (lexer.indent :: lexer.outerIndents).dropWhile (column < ·) with
    | [] => lexer
    | indent :: outerIndents =>
      { lexer with
        indent, outerIndents
        tokens := lexer.tokens ++ (deeper.map fun _ => Token.blockEnd).toArray }

/-- Begins a block at a column, if it is further in, with a token before those from `place` on. -/
def openBlock (lexer : Lexer) (column : Nat) (place : Nat) (token : Token) : Lexer :=
  if lexer.inFlow || column ≤ lexer.indent then lexer
  else
    { lexer with
      indent := column
      outerIndents := lexer.indent :: lexer.outerIndents
      tokens := lexer.tokens.insertIdxIfInBounds place token }

/-- Remembers that a key may begin here. -/
def saveKeyStart? (lexer : Lexer) (line column : Nat) : Option Lexer :=
  if lexer.keyAllowed then
    let required := !lexer.inFlow && lexer.indent == column
    (forget lexer.keyStart).map fun _ =>
      { lexer with keyStart := some ⟨lexer.tokens.size, line, column, required⟩ }
  else
    some lexer

def enterFlow (lexer : Lexer) : Lexer :=
  { lexer with keyStart := none, outerKeyStarts := lexer.keyStart :: lexer.outerKeyStarts }

/-- Leaves brackets or braces, if the place is inside any. -/
def leaveFlow (lexer : Lexer) : Lexer :=
  match lexer.outerKeyStarts with
  | [] => lexer
  | keyStart :: outerKeyStarts => { lexer with keyStart, outerKeyStarts }

/-- An entry or key that its indicator begins: it may open a block. -/
def beginEntry? (lexer : Lexer) (column : Nat) (opening token : Token) (keyAllowed : Bool) :
    Option Lexer := do
  guard (lexer.inFlow || lexer.keyAllowed)
  let lexer ← (lexer.openBlock column lexer.tokens.size opening).dropKeyStart?
  return { lexer with keyAllowed }.push token

/-- The colon before a value. If a key may have begun, it did, and it may have opened a block. -/
def beginValue? (lexer : Lexer) (column : Nat) : Option Lexer :=
  match lexer.keyStart with
  | some start =>
    let lexer := { lexer with tokens := lexer.tokens.insertIdxIfInBounds start.token .key }
    let lexer := lexer.openBlock start.column start.token .blockMappingStart
    some ({ lexer with keyStart := none, keyAllowed := false }.push .value)
  | none => do
    guard (lexer.inFlow || lexer.keyAllowed)
    let lexer := lexer.openBlock column lexer.tokens.size .blockMappingStart
    return { lexer with keyAllowed := !lexer.inFlow }.push .value

end Lexer

/-- Passes over blanks, comments and line breaks, and says whether a key is allowed behind them. Where
a key is allowed outside of brackets and braces, a tab is no blank. -/
def skipToToken (inFlow keyAllowed : Bool) : Reader Glyph Bool :=
  iterate (fun keyAllowed : Bool => do
    let _ ← runChars fun c => c == ' ' || (c == '\t' && (inFlow || !keyAllowed))
    if (← peekChar) = '#' then
      let _ ← runChars (!isBreakOrEnd ·)
    if isBreak (← peekChar) then
      let _ ← next
      return .inl (keyAllowed || !inFlow)
    return .inr keyAllowed) keyAllowed

/-- A character that begins something else than a plain scalar. -/
def isIndicator (c : Char) : Bool :=
  c ∈ ['-', '?', ':', ',', '[', ']', '\x7b', '\x7d', '#', '&', '*', '!', '|', '>', '\'', '"', '%', '@',
    '\x60']

/-- Whether a plain scalar begins with these two characters. -/
def beginsPlain (inFlow : Bool) (c d : Char) : Bool :=
  !(isGapOrEnd c || isIndicator c) || (c == '-' && !isGap d) ||
    (!inFlow && (c == '?' || c == ':') && !isGapOrEnd d)

/-- What a token is, as its first characters tell. -/
inductive Opening where
  | directive
  | documentMark (token : Token)
  | flowStart (token : Token)
  | flowEnd (token : Token)
  | flowEntry
  | blockEntry
  | key
  | value
  | alias
  | anchor
  | tag
  | block (literal : Bool)
  | singleQuoted
  | doubleQuoted
  | plain

/-- What the token is that begins with these two characters, somewhere behind the start of a line. -/
def opening? (inFlow : Bool) (c d : Char) : Option Opening :=
  match c with
  | '[' => some (.flowStart .flowSequenceStart)
  | '\x7b' => some (.flowStart .flowMappingStart)
  | ']' => some (.flowEnd .flowSequenceEnd)
  | '\x7d' => some (.flowEnd .flowMappingEnd)
  | ',' => some .flowEntry
  | '*' => some .alias
  | '&' => some .anchor
  | '!' => some .tag
  | '\'' => some .singleQuoted
  | '"' => some .doubleQuoted
  | _ =>
    if c = '-' ∧ isGapOrEnd d then some .blockEntry
    else if c = '?' ∧ (inFlow || isGapOrEnd d) then some .key
    else if c = ':' ∧ (inFlow || isGapOrEnd d) then some .value
    else if c = '|' ∧ !inFlow then some (.block true)
    else if c = '>' ∧ !inFlow then some (.block false)
    else if beginsPlain inFlow c d then some .plain
    else none

/-- What the next token is. At the start of a line it may be a directive or the mark of a document. -/
def opening (inFlow : Bool) : Reader Glyph Opening := do
  let c ← peekChar
  if c = '%' ∧ (← column) = 0 then return .directive
  if ← atDocumentMark '-' then return .documentMark .documentStart
  if ← atDocumentMark '.' then return .documentMark .documentEnd
  match opening? inFlow c (← peekSecond) with
  | some opening => return opening
  | none => failure

namespace Lexer

/-- A mark of a document, or the end of the stream: all blocks end before it. -/
def closeAll? (lexer : Lexer) : Option Lexer :=
  ((lexer.closeBlocks (-1)).dropKeyStart?).map fun lexer => { lexer with keyAllowed := false }

/-- A token at a place where a key may begin. -/
def pushNode? (lexer : Lexer) (glyph : Glyph) (token : Token) : Option Lexer :=
  (lexer.saveKeyStart? glyph.line glyph.column).map fun lexer =>
    { lexer with keyAllowed := false }.push token

/-- An indicator at the front of the text, with what it does to a lexer. -/
def takeIndicator (result : Option Lexer) : Reader Glyph Lexer := do
  let _ ← next
  match result with
  | some lexer => return lexer
  | none => failure

def beginFlow? (lexer : Lexer) (glyph : Glyph) (token : Token) : Option Lexer :=
  (lexer.saveKeyStart? glyph.line glyph.column).map fun lexer =>
    { lexer.enterFlow with keyAllowed := true }.push token

def endFlow? (lexer : Lexer) (token : Token) : Option Lexer :=
  lexer.dropKeyStart?.map fun lexer => { lexer.leaveFlow with keyAllowed := false }.push token

def nextFlow? (lexer : Lexer) : Option Lexer :=
  lexer.dropKeyStart?.map fun lexer => { lexer with keyAllowed := true }.push .flowEntry

/-- Reads a token of which the first characters have told what it is, and that begins at a glyph. -/
def readToken (lexer : Lexer) (glyph : Glyph) : Opening → Reader Glyph Lexer
  | .directive => do return (← lexer.closeAll?).push (← directive)
  | .documentMark token => do
    let _ ← take 3
    return (← lexer.closeAll?).push token
  | .flowStart token => takeIndicator (lexer.beginFlow? glyph token)
  | .flowEnd token => takeIndicator (lexer.endFlow? token)
  | .flowEntry => takeIndicator lexer.nextFlow?
  | .blockEntry =>
    takeIndicator (lexer.beginEntry? glyph.column .blockSequenceStart .blockEntry true)
  | .key => takeIndicator (lexer.beginEntry? glyph.column .blockMappingStart .key (!lexer.inFlow))
  | .value => takeIndicator (lexer.beginValue? glyph.column)
  | .alias => do lexer.pushNode? glyph (.alias (← anchorName))
  | .anchor => do lexer.pushNode? glyph (.anchor (← anchorName))
  | .tag => do
    let token ← tag
    let after ← peekChar
    guard (isGapOrEnd after || (lexer.inFlow && after == ','))
    lexer.pushNode? glyph token
  | .block literal => do
    let lexer ← lexer.dropKeyStart?
    let text ← blockScalar literal lexer.indent
    return { lexer with keyAllowed := true }.push (.scalar (if literal then .literal else .folded) text)
  | .singleQuoted => do
    lexer.pushNode? glyph (.scalar .singleQuoted (← quotedScalar '\'' singleQuotedWord))
  | .doubleQuoted => do
    lexer.pushNode? glyph (.scalar .doubleQuoted (← quotedScalar '"' doubleQuotedWord))
  | .plain => do
    let (text, broken) ← plainScalar lexer.inFlow lexer.indent
    let lexer ← lexer.pushNode? glyph (.scalar .plain text)
    return { lexer with keyAllowed := broken }

/-- Reads on by one token, or to the end. -/
def step (lexer : Lexer) : Reader Glyph (Lexer ⊕ Array Token) := do
  let keyAllowed ← skipToToken lexer.inFlow lexer.keyAllowed
  let some glyph ← peek? | failure
  let lexer ← { lexer with keyAllowed }.dropStale? glyph.line glyph.column
  let lexer := lexer.closeBlocks glyph.column
  if isEnd glyph.char then return .inr (← lexer.closeAll?).tokens
  return .inl (← lexer.readToken glyph (← opening lexer.inFlow))

end Lexer

/-- The tokens of a source, if it has no fault. -/
def tokens? (source : List Glyph) : Option (List Token) :=
  (iterate Lexer.step .initial source).map fun (tokens, _) => tokens.toList

end ManifestLint.Yaml
