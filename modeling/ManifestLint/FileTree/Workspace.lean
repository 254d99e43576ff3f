import ManifestLint.FileTree.Basic

/-!
# Workspaces

A file tree as a program sees it: with a working directory, from which relative paths start.
-/

namespace ManifestLint

/-- A tree and the names on the way from its top to the working directory, as far as the directories
on it are still there. Behind them come as many as were removed under the program: they are empty, and
each can be left by `..` all the same. -/
structure Workspace where
  tree : FileTree
  workingDirectory : List String
  removed : Nat

namespace Workspace

/-- The trail from which a path starts. -/
def start (workspace : Workspace) (path : Path) : List FileTree :=
  if path.isAbsolute then [workspace.tree]
  else
    List.replicate workspace.removed .empty ++
      (FileTree.trail? workspace.workingDirectory [workspace.tree]).getD [.empty]

/-- How many bytes a path may have, and one more. -/
def pathLimit : Nat := 4096

def locate (workspace : Workspace) (path : Path) : Except Fault FileTree :=
  if path.text.toList.contains '\x00' then .error .nulInPath
  else if path.text.isEmpty then .error .notFound
  else if pathLimit ≤ path.text.utf8ByteSize then .error .nameTooLong
  else do
    match ← FileTree.walk (Text.segments '/' path.text.toList) (workspace.start path) with
    | [] => throw .notFound
    | tree :: _ => return tree

def holds (workspace : Workspace) (path : Path) : Bool :=
  match workspace.locate path with
  | .ok _ => true
  | .error _ => false

def holdsFile (workspace : Workspace) (path : Path) : Bool :=
  match workspace.locate path with
  | .ok tree => !tree.isDirectory
  | .error _ => false

def holdsDirectory (workspace : Workspace) (path : Path) : Bool :=
  match workspace.locate path with
  | .ok tree => tree.isDirectory
  | .error _ => false

def readText (workspace : Workspace) (path : Path) : Except Fault String := do
  match ← workspace.locate path with
  | .directory _ => throw .isADirectory
  | .file content =>
    match String.fromUTF8? content with
    | some text => return text
    | none => throw .invalidText

/-- The entries of the directory at a path, by rising names; nothing has none. -/
def entriesAt (workspace : Workspace) (path : Path) : List (String × FileTree) :=
  match workspace.locate path with
  | .ok tree => tree.entries
  | .error _ => []

/-- The absolute path of the working directory, if it still exists. -/
def currentPath? (workspace : Workspace) : Option Path :=
  if workspace.removed = 0 then some ⟨"/" ++ "/".intercalate workspace.workingDirectory⟩ else none

/-! ## Changes -/

/-- The names on the way from the top to a path, read off its text. -/
def names (workspace : Workspace) (path : Path) : List String :=
  path.components.foldl step workspace.workingDirectory
where
  /-- The way after one more component. -/
  step (way : List String) : Path.Component → List String
    | .root => []
    | .current => way
    | .parent => way.dropLast
    | .name name => way ++ [name]

/-- Puts a file at a path, and makes the directories above it. -/
def write (workspace : Workspace) (path : Path) (content : ByteArray) : Workspace :=
  { workspace with tree := workspace.tree.change (fun _ => .file content) (workspace.names path) }

def makeDirectory (workspace : Workspace) (path : Path) : Workspace :=
  let made : FileTree → FileTree := fun tree => if tree.isDirectory then tree else .empty
  { workspace with tree := workspace.tree.change made (workspace.names path) }

/-- Removes what is at a path. The working directory goes with a directory above it. -/
def remove (workspace : Workspace) (path : Path) : Workspace :=
  let way := workspace.names path
  let kept := if way.isPrefixOf workspace.workingDirectory then way.dropLast else workspace.workingDirectory
  { tree := workspace.tree.remove way
    workingDirectory := kept
    removed := workspace.removed + (workspace.workingDirectory.length - kept.length) }

def enter (workspace : Workspace) (path : Path) : Workspace :=
  { workspace with workingDirectory := workspace.names path, removed := 0 }

end Workspace

end ManifestLint
