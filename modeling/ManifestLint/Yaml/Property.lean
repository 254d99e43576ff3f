import ManifestLint.Yaml.Scalar

/-!
# Anchors, tags and directives

What stands before a node, or before a document.
-/

namespace ManifestLint.Yaml

open Reader

/-- The name of an anchor or alias, with the mark before it. A blank or one of some indicators must
follow. -/
def anchorName : Reader Glyph (List Char) := do
  let _ ← next
  let name ← runChars isWordChar
  guard !name.isEmpty
  let c ← peekChar
  guard (isGapOrEnd c || c ∈ ['?', ':', ',', ']', '\x7d', '%', '@', '\x60'])
  return name

def isTagChar (c : Char) : Bool :=
  isWordChar c || c ∈ [';', '/', '?', ':', '@', '&', '=', '+', '$', '.', '%', '!', '~', '*', '\'', '(', ')']

/-- A character of a tag between angle brackets, or of the expansion of a handle. -/
def isVerbatimTagChar (c : Char) : Bool := isTagChar c || c == ',' || c == '[' || c == ']'

/-- How many octets a character takes up, by the first of them. -/
def octetCount? (first : Nat) : Option Nat :=
  if first < 0x80 then some 1
  else if first / 0x20 = 6 then some 2
  else if first / 0x10 = 14 then some 3
  else if first / 0x08 = 30 then some 4
  else none

def octet : Reader Glyph Nat := do
  guard (← acceptChar '%')
  let some value := Text.ofDigits? 16 ((← take 2).map (·.char)) | failure
  return value

/-- The escaped octets of one character, each as the character of its number. -/
def escapedOctets : Reader Glyph (List Char) := do
  let first ← octet
  let some count := octetCount? first | failure
  iterate (fun octets : List Nat => do
    if octets.length = count then return .inr (octets.reverse.map Char.ofNat)
    let value ← octet
    guard (value / 0x40 = 2)
    return .inl (value :: octets)) [first]

/-- The characters of a tag, after those that are known to belong to it. -/
def tagText (isMember : Char → Bool) (known : List Char) : Reader Glyph (List Char) :=
  iterate (fun text : List Char => do
    let c ← peekChar
    if !isMember c then return .inr text
    if c = '%' then return .inl (text ++ (← escapedOctets))
    let _ ← next
    return .inl (text ++ [c])) known

/-- A handle from its exclamation mark on: a word, and a second mark if there is one. -/
def tagHandle : Reader Glyph (List Char) := do
  guard (← acceptChar '!')
  let word ← runChars isWordChar
  return '!' :: word ++ (if ← acceptChar '!' then ['!'] else [])

/-- Whether a handle is closed by a second mark. -/
def isClosedHandle (handle : List Char) : Bool := 2 ≤ handle.length && handle.getLast? == some '!'

/-- A tag by its handle and what follows it. A tag between angle brackets has no handle, and an
exclamation mark by itself is no handle either. -/
def tag : Reader Glyph Token := do
  let token ← (do
    if (← peekSecond) = '<' then
      let _ ← take 2
      let text ← tagText isVerbatimTagChar []
      guard (!text.isEmpty && (← acceptChar '>'))
      return Token.tag [] text
    let handle ← tagHandle
    if isClosedHandle handle then
      let suffix ← tagText isTagChar []
      guard !suffix.isEmpty
      return Token.tag handle suffix
    let suffix ← tagText isTagChar (handle.drop 1)
    return if suffix.isEmpty then Token.tag [] ['!'] else Token.tag ['!'] suffix)
  return token

def versionNumber : Reader Glyph Nat := do
  let digits ← runChars Text.isDigit
  guard (1 ≤ digits.length && digits.length ≤ 9)
  let some value := Text.ofDigits? 10 digits | failure
  return value

def directive : Reader Glyph Token := do
  let _ ← next
  let name ← runChars isWordChar
  guard (isGapOrEnd (← peekChar))
  let _ ← runChars isGap
  let token ← (do
    if name = "YAML".toList then
      let major ← versionNumber
      guard (← acceptChar '.')
      return Token.versionDirective major (← versionNumber)
    guard (name = "TAG".toList)
    let handle ← tagHandle
    guard (handle = ['!'] || isClosedHandle handle)
    guard (isGap (← peekChar))
    let _ ← runChars isGap
    let expansion ← tagText isVerbatimTagChar []
    guard (!expansion.isEmpty && isGapOrEnd (← peekChar))
    return Token.tagDirective handle expansion)
  let _ ← runChars isGap
  if (← peekChar) = '#' then
    let _ ← runChars (!isBreakOrEnd ·)
  let c ← peekChar
  guard (isBreakOrEnd c)
  if isBreak c then
    let _ ← next
  return token

end ManifestLint.Yaml
