/-!
# Lines of a text

A text is cut into lines at ten break characters, of which carriage return and line feed together
count as one break. A cursor walks the text and records each line as a span of byte offsets; the
lines are the slices of those spans. A break at the very end adds no empty line.
-/

namespace ManifestLint.Text

def isLineBreak (c : Char) : Bool :=
  c == '\n' || c == '\r' || c == '\x0b' || c == '\x0c' || c == '\x1c' || c == '\x1d' ||
  c == '\x1e' || c == '\u0085' || c == '\u2028' || c == '\u2029'

/-- The bytes of a text from `start` up to but without `stop`. -/
structure Span where
  start : Nat
  stop : Nat
  deriving DecidableEq, Repr

/-- The text below a span; nothing when an end of it lies inside a character or past the text. -/
def slice? (text : String) (span : Span) : Option String :=
  if h : (String.Pos.Raw.mk span.start).IsValid text ∧ (String.Pos.Raw.mk span.stop).IsValid text ∧
      span.start ≤ span.stop then
    some (text.extract ⟨_, h.1⟩ ⟨_, h.2.1⟩)
  else
    none

/-- A place in a text: the byte offset at which the current line began, that of the next
character, and the characters still to be read. -/
structure Cursor where
  lineStart : Nat
  offset : Nat
  rest : List Char
  deriving DecidableEq, Repr

namespace Cursor

/-- Before the first character of a text. -/
def atStart (text : String) : Cursor := ⟨0, 0, text.toList⟩

/-- The next line begins here, at `offset`, with `rest` to be read. -/
def newLine (offset : Nat) (rest : List Char) : Cursor := ⟨offset, offset, rest⟩

/-- Reads one character, or a carriage return with its line feed, and gives the span of the line
that it ends, if it ends one. -/
def advance? : Cursor → Option (Option Span × Cursor)
  | ⟨_, _, []⟩ => none
  | ⟨lineStart, offset, '\r' :: '\n' :: rest⟩ => some (some ⟨lineStart, offset⟩, newLine (offset + 2) rest)
  | ⟨lineStart, offset, c :: rest⟩ =>
    let next := offset + c.utf8Size
    if isLineBreak c then some (some ⟨lineStart, offset⟩, newLine next rest)
    else some (none, ⟨lineStart, next, rest⟩)

theorem advance?_rest_lt {cursor next : Cursor} {cut : Option Span}
    (h : cursor.advance? = some (cut, next)) : next.rest.length < cursor.rest.length := by
  unfold advance? at h
  split at h
  · cases h
  · cases h; simp only [newLine, List.length_cons]; omega
  · dsimp only at h
    split at h <;> (cases h; simp [newLine])

/-- The spans of the lines that end at or after the cursor. What follows the last break is a line
only if it holds something. -/
def spans (cursor : Cursor) : List Span :=
  match _h : cursor.advance? with
  | none => if cursor.lineStart < cursor.offset then [⟨cursor.lineStart, cursor.offset⟩] else []
  | some (cut, next) => cut.toList ++ next.spans
termination_by cursor.rest.length
decreasing_by exact advance?_rest_lt _h

end Cursor

/-- The spans of the lines of a text, in order, without their breaks. -/
def lineSpans (text : String) : List Span := (Cursor.atStart text).spans

/-- The lines of a text, in order, without their breaks. -/
def splitLines (text : String) : List String := (lineSpans text).filterMap (slice? text)

end ManifestLint.Text
