import ManifestLint.FileTree.Workspace
import ManifestLint.Glob.Match

/-!
# Expanding patterns

The paths in a workspace that a pattern stands for. A name without wildcards is looked up, and the
entries of a directory are listed only for wildcards. So `.` and `..` stay in a path where the pattern
has them, and wildcards stand for them only behind a dot of their own.
-/

namespace ManifestLint.Glob

/-- An entry below a path. The working directory itself is left out of the path. -/
def below (path : Path) (name : String) : Path :=
  if path.components = [.current] then ⟨name⟩ else path.entry name

mutual

/-- All that is in a tree at a path, each directory before what is in it. -/
def descendants (path : Path) : FileTree → List (Path × String × FileTree)
  | .file _ => []
  | .directory entries => descendantEntries path entries

def descendantEntries (path : Path) : List (String × FileTree) → List (Path × String × FileTree)
  | [] => []
  | (name, tree) :: rest =>
    (below path name, name, tree) :: descendants (below path name) tree ++ descendantEntries path rest

end

/-- All that is at some depth below a path. -/
def subtree (workspace : Workspace) (path : Path) : List (Path × String × FileTree) :=
  match workspace.locate path with
  | .ok tree => descendants path tree
  | .error _ => []

/-- The directories that wildcards stand for besides the entries that are listed: those that a dot
behind which they come can begin. -/
def dotNames : List Token → List String
  | .char '.' :: tokens =>
    ["..", "."].filter fun name => matchesTokens (.char '.' :: tokens) name.toList
  | _ => []

/-- The paths that some segments stand for below a path. -/
def expandSegments (workspace : Workspace) (directoriesOnly : Bool) : List Segment → Path → List Path
  | [], path => if directoriesOnly && !workspace.holdsDirectory path then [] else [path]
  | .name text :: rest, path =>
    let name := String.ofList text
    let next := below path name
    let found :=
      if name = "." ∨ name = ".." then workspace.holdsDirectory path else workspace.holds next
    if found then expandSegments workspace directoriesOnly rest next else []
  | .wild tokens :: rest, path =>
    if workspace.holdsDirectory path then
      (dotNames tokens).flatMap (fun name =>
        expandSegments workspace directoriesOnly rest (path.entry name)) ++
      (workspace.entriesAt path).flatMap fun (name, _) =>
        if matchesTokens tokens name.toList then
          expandSegments workspace directoriesOnly rest (below path name)
        else
          []
    else
      []
  | [.anyDepth], path =>
    ((subtree workspace path).filter fun (_, _, tree) => tree.isDirectory).map (·.1)
  | .anyDepth :: segment :: rest, path =>
    (subtree workspace path).flatMap fun (next, name, _) =>
      if segment.accepts name then expandSegments workspace directoriesOnly rest next else []

def Pattern.expand (pattern : Pattern) (workspace : Workspace) : List Path :=
  expandSegments workspace pattern.directoriesOnly pattern.segments
    ⟨if pattern.absolute then "/" else "."⟩

end ManifestLint.Glob
