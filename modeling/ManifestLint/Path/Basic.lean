import ManifestLint.Text.Segments

/-!
# Paths

A path is a text, kept as it was given. It is read as components: segments between slashes, where
empty segments and single dots count for nothing, save a dot at the very start of a relative path.
Two texts with the same components name the same path; `a/../b` and `b` do not.

Paths and the names in them are Unicode texts, and those that a system may have besides are left out.
So a path can be shown, put into a message or handed on as a pattern by its text, and nothing in it is
lost or replaced.
-/

namespace ManifestLint

structure Path where
  text : String
  deriving DecidableEq, Repr

namespace Path

/-- One step of a path: to the top of the tree, to the same directory, to the one above it, or to an
entry. -/
inductive Component where
  | root
  | current
  | parent
  | name (text : String)
  deriving DecidableEq, Repr

/-- Whether a segment counts for nothing. -/
def isVacuous (segment : List Char) : Bool := segment == [] || segment == ['.']

/-- The component that a segment stands for, if it counts. -/
def Component.ofSegment? (segment : List Char) : Option Component :=
  if isVacuous segment then none
  else if segment = ['.', '.'] then some .parent
  else some (.name (String.ofList segment))

def Component.text : Component → String
  | .root => "/"
  | .current => "."
  | .parent => ".."
  | .name text => text

/-- A path cut in two: how it begins, as at most one component, and the segments that follow. -/
structure Parts where
  anchor : Option Component
  body : List (List Char)

/-- The two parts of a text. -/
def Parts.ofChars (text : List Char) : Parts :=
  match Text.segments '/' text with
  | [] => ⟨none, []⟩
  | first :: body =>
    if first = ['.'] then ⟨some .current, body⟩
    else if first = [] ∧ body ≠ [] then ⟨some .root, body⟩
    else ⟨none, first :: body⟩

/-- The text whose two parts these are. -/
def Parts.toChars (parts : Parts) : List Char :=
  match parts.anchor with
  | none => Text.joined '/' parts.body
  | some .root => '/' :: Text.joined '/' parts.body
  | some anchor =>
    if parts.body = [] then anchor.text.toList
    else anchor.text.toList ++ '/' :: Text.joined '/' parts.body

def parts (path : Path) : Parts := Parts.ofChars path.text.toList

def components (path : Path) : List Component :=
  path.parts.anchor.toList ++ path.parts.body.filterMap Component.ofSegment?

/-- Whether two texts name the same path. -/
def SameComponents (a b : Path) : Prop := a.components = b.components

instance (a b : Path) : Decidable (SameComponents a b) :=
  inferInstanceAs (Decidable (a.components = b.components))

def isAbsolute (path : Path) : Bool := path.text.toList.head? == some '/'

/-- The second path seen from the first: an absolute one stands for itself, any other is written
behind a slash. -/
def join (base path : Path) : Path :=
  if path.isAbsolute then path
  else if base.text.toList.getLast?.all (· == '/') then ⟨base.text ++ path.text⟩
  else ⟨base.text ++ "/" ++ path.text⟩

def entry (directory : Path) (name : String) : Path := directory.join ⟨name⟩

/-- The segments without the last one that counts, and without those that count for nothing around
it; nothing if none counts. -/
def dropLast? (body : List (List Char)) : Option (List (List Char)) :=
  match body.reverse.dropWhile isVacuous with
  | [] => none
  | _ :: rest => some (rest.dropWhile isVacuous).reverse

/-- The path without its last component. It is read off the text: `..` is a component like any
other. The top has none above it, and neither has the empty path. -/
def parent? (path : Path) : Option Path :=
  match dropLast? path.parts.body with
  | some body => some ⟨String.ofList (Parts.toChars ⟨path.parts.anchor, body⟩)⟩
  | none => if path.parts.anchor = some .current then some ⟨""⟩ else none

end Path

end ManifestLint
