/-!
# Readers

A reader takes what it understands from the front of a list and leaves the rest, or fails. A reader
that is repeated must take something each time, so every reading ends.
-/

namespace ManifestLint

/-- A reader of a list of `τ` that gives an `α`. -/
abbrev Reader (τ α : Type) := StateT (List τ) Option α

namespace Reader

variable {τ α β : Type}

/-- The next item, which is left where it is. -/
def peek? : Reader τ (Option τ) := fun input => some (input.head?, input)

def next : Reader τ τ := fun input =>
  match input with
  | [] => none
  | item :: rest => some (item, rest)

/-- The longest run of items of a class, which may be empty. -/
def run (p : τ → Bool) : Reader τ (List τ) := fun input =>
  some (input.takeWhile p, input.dropWhile p)

/-- The longest run of items of a class; there must be one. -/
def runSome (p : τ → Bool) : Reader τ (List τ) := do
  let taken ← run p
  guard !taken.isEmpty
  return taken

def take (n : Nat) : Reader τ (List τ) := fun input =>
  if n ≤ input.length then some (input.take n, input.drop n) else none

def atEnd : Reader τ Bool := fun input => some (input.isEmpty, input)

section
variable [BEq τ]

/-- Takes these items if they come next, and says whether they did. -/
def accept (items : List τ) : Reader τ Bool := fun input =>
  if items.isPrefixOf input then some (true, input.drop items.length) else some (false, input)

/-- These items, which must come next. -/
def expect (items : List τ) : Reader τ Unit := do
  guard (← accept items)

end

/-- Repeats a step from a state, until it gives a result in place of a new state. A step that takes
nothing and is not the last one fails. -/
def iterate (step : α → Reader τ (α ⊕ β)) (state : α) (input : List τ) : Option (β × List τ) :=
  match step state input with
  | none => none
  | some (.inr result, rest) => some (result, rest)
  | some (.inl state, rest) =>
    if rest.length < input.length then iterate step state rest else none
termination_by input.length

def readAll? (reader : Reader τ α) (input : List τ) : Option α :=
  match reader input with
  | some (result, []) => some result
  | _ => none

end Reader

end ManifestLint
