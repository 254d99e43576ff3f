import ManifestLint.Rule.Basic

/-!
# Adding where copying would do

An instruction that adds files may also fetch and unpack them, so copying is to be preferred. Blank
characters before the keyword are passed over: those of the Unicode property White_Space, and with
them the four ASCII separators U+001C to U+001F, which that property leaves out.
-/

namespace ManifestLint

namespace Text

/-- The Unicode property White_Space. -/
def isWhiteSpace (c : Char) : Bool :=
  ('\x09' ≤ c && c ≤ '\x0d') || c == ' ' || c == '\u0085' || c == '\u00a0' || c == '\u1680' ||
  ('\u2000' ≤ c && c ≤ '\u200a') || c == '\u2028' || c == '\u2029' || c == '\u202f' ||
  c == '\u205f' || c == '\u3000'

/-- A file, group, record or unit separator of ASCII. -/
def isSeparator (c : Char) : Bool := '\x1c' ≤ c && c ≤ '\x1f'

def isBlank (c : Char) : Bool := isWhiteSpace c || isSeparator c

end Text

namespace Rule.AddOrCopy

def id : String := "add-vs-copy"

def added (number : Nat) : Finding :=
  ⟨.warning, id, some number, "'ADD' used instead of 'COPY'. 'COPY' is preferred unless needed."⟩

def checkLine (number : Nat) (line : String) : List Finding :=
  if opensWith "ADD" (line.toList.dropWhile Text.isBlank) then [added number] else []

def rule : Rule where
  id := id
  summary := "prefer COPY over ADD"
  check := checkEach checkLine 1

end Rule.AddOrCopy

end ManifestLint
