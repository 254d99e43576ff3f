import ManifestLint.LoadError
import ManifestLint.Path.Basic

/-!
# File trees

Files and directories below one top. A path is followed from the top or from a directory inside, and
each step but an entry's own name must be taken from a directory: `file/..` leads nowhere. A
directory lists its entries by rising names.

Names are Unicode texts. Left out are names that are not, links, and permissions: what is there can be
read, and has one place.
-/

namespace ManifestLint

inductive FileTree where
  | file (content : ByteArray)
  | directory (entries : List (String × FileTree))

namespace FileTree

def empty : FileTree := .directory []

/-- The entries of a directory; a file has none. -/
def entries : FileTree → List (String × FileTree)
  | .file _ => []
  | .directory entries => entries

def entry? (tree : FileTree) (name : String) : Option FileTree := tree.entries.lookup name

def isDirectory : FileTree → Bool
  | .file _ => false
  | .directory _ => true

def nameLimit : Nat := 255

/-- Takes the steps of a path, given as its segments. A trail leads from the place that was reached,
which comes first, up to the top; `..` stays at the top. -/
def walk : List (List Char) → List FileTree → Except Fault (List FileTree)
  | [], trail => .ok trail
  | segment :: rest, here :: above =>
    if !here.isDirectory then .error .notADirectory
    else
      match Path.Component.ofSegment? segment with
      | some (.name name) =>
        if nameLimit < name.utf8ByteSize then .error .nameTooLong
        else
          match here.entry? name with
          | some tree => walk rest (tree :: here :: above)
          | none => .error .notFound
      | some .parent => walk rest (if above.isEmpty then [here] else above)
      | _ => walk rest (here :: above)
  | _ :: _, [] => .error .notFound

/-- Sets an entry of a directory, in its place among the names. -/
def setEntry (name : String) (tree : FileTree) : List (String × FileTree) → List (String × FileTree)
  | [] => [(name, tree)]
  | (other, sibling) :: rest =>
    if name = other then (name, tree) :: rest
    else if name < other then (name, tree) :: (other, sibling) :: rest
    else (other, sibling) :: setEntry name tree rest

/-- Changes what is at the end of a way of names. Directories that are missing on the way are made,
and what is missing at its end counts as an empty directory. -/
def change (f : FileTree → FileTree) : List String → FileTree → FileTree
  | [], tree => f tree
  | name :: way, tree =>
    .directory (setEntry name (change f way ((tree.entry? name).getD empty)) tree.entries)

/-- The tree without what is at the end of a way of names. The top itself is only emptied. -/
def remove : List String → FileTree → FileTree
  | [], _ => empty
  | [name], tree =>
    match tree with
    | .file content => .file content
    | .directory entries => .directory (entries.filter (·.1 != name))
  | name :: way, tree =>
    match tree.entry? name with
    | none => tree
    | some child => .directory (setEntry name (remove way child) tree.entries)

/-- The place at the end of a way of names, as a trail up to the top. -/
def trail? : List String → List FileTree → Option (List FileTree)
  | [], trail => some trail
  | name :: way, here :: above =>
    match here.entry? name with
    | some tree => trail? way (tree :: here :: above)
    | none => none
  | _ :: _, [] => none

end FileTree

end ManifestLint
