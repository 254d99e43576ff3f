import ManifestLint.Text.CaseTable

/-!
# Lower case

The full lower-case form of a text. Every character is mapped by itself, save that a capital sigma
at the end of a word takes its final form; only the capital I with a dot becomes two characters.
-/

namespace ManifestLint.Text

def inRanges (ranges : List (Nat × Nat)) (code : Nat) : Bool :=
  ranges.any fun (first, last) => first ≤ code && code ≤ last

def isCased (c : Char) : Bool := inRanges casedRanges c.toNat

/-- A mark that does not part a letter from its neighbours. -/
def isCaseIgnorable (c : Char) : Bool := inRanges caseIgnorableRanges c.toNat

/-- The lower-case form of one character, away from the rule on sigma. -/
def lowerChar (c : Char) : List Char :=
  if c = '\u0130' then ['i', '\u0307']
  else [((caseRanges.findSome? (·.lowerOf? c.toNat)).map Char.ofNat).getD c]

/-- Whether the nearest character that is not ignorable is a letter with a case. -/
def meetsCased (cs : List Char) : Bool :=
  match cs.dropWhile isCaseIgnorable with
  | [] => false
  | c :: _ => isCased c

/-- The lower-case form of `cs`, where `before` holds what precedes it, nearest first. A sigma ends a
word if a letter precedes it and none follows. -/
def lowerFrom (before : List Char) : List Char → List Char
  | [] => []
  | c :: rest =>
    (if c = 'Σ' then [if meetsCased before && !meetsCased rest then 'ς' else 'σ'] else lowerChar c) ++
      lowerFrom (c :: before) rest

def lowercase (cs : List Char) : List Char := lowerFrom [] cs

end ManifestLint.Text
