import ManifestLint.FileTree.Workspace

/-!
# Trees without what is in their files

The outline of a tree has its names and nothing in its files. Whatever is asked of a workspace but the
text of a file can be asked of its outline. Main statement: `Workspace.locate_outlined`.
-/

namespace ManifestLint

namespace FileTree

mutual

/-- The tree with nothing in its files. -/
def outline : FileTree → FileTree
  | .file _ => .file ByteArray.empty
  | .directory entries => .directory (outlineEntries entries)

def outlineEntries : List (String × FileTree) → List (String × FileTree)
  | [] => []
  | (name, tree) :: rest => (name, outline tree) :: outlineEntries rest

end

theorem outlineEntries_eq_map (entries : List (String × FileTree)) :
    outlineEntries entries = entries.map fun entry => (entry.1, entry.2.outline) := by
  induction entries with
  | nil => rfl
  | cons entry rest ih => rw [outlineEntries, ih, List.map_cons]

@[simp] theorem isDirectory_outline (tree : FileTree) : tree.outline.isDirectory = tree.isDirectory := by
  cases tree <;> rfl

theorem entries_outline (tree : FileTree) :
    tree.outline.entries = tree.entries.map fun entry => (entry.1, entry.2.outline) := by
  cases tree with
  | file content => rfl
  | directory entries => exact outlineEntries_eq_map entries

theorem entry?_outline (tree : FileTree) (name : String) :
    tree.outline.entry? name = (tree.entry? name).map outline := by
  unfold entry?
  rw [entries_outline]
  induction tree.entries with
  | nil => rfl
  | cons entry rest ih =>
    rw [List.map_cons, List.lookup_cons, List.lookup_cons]
    split
    · rfl
    · exact ih

/-- A walk takes the same steps through outlines. -/
theorem walk_outline (segments : List (List Char)) (trail : List FileTree) :
    walk segments (trail.map outline) = (walk segments trail).map (List.map outline) := by
  fun_induction walk segments trail with
  | case1 trail => rfl
  | case2 segment rest here above outside => simp [walk, outside, Except.map]
  | case3 segment rest here above inside name stands long =>
    simp [walk, inside, stands, long, Except.map]
  | case4 segment rest here above inside name stands short tree found ih =>
    rw [← ih]
    simp [walk, inside, stands, short, entry?_outline, found]
  | case5 segment rest here above inside name stands short missing =>
    simp [walk, inside, stands, short, entry?_outline, missing, Except.map]
  | case6 segment rest here above inside stands ih =>
    rw [← ih]
    cases above <;> simp [walk, inside, stands]
  | case7 segment rest here above inside noName noParent ih =>
    rw [← ih]
    simp [walk, inside]
  | case8 => rfl

theorem trail?_outline (way : List String) (trail : List FileTree) :
    trail? way (trail.map outline) = (trail? way trail).map (List.map outline) := by
  fun_induction trail? way trail with
  | case1 trail => rfl
  | case2 name way here above child found ih =>
    rw [← ih]
    simp [trail?, entry?_outline, found]
  | case3 name way here above missing => simp [trail?, entry?_outline, missing]
  | case4 => rfl

end FileTree

namespace Workspace

/-- The workspace with nothing in its files. -/
def outlined (workspace : Workspace) : Workspace := { workspace with tree := workspace.tree.outline }

theorem start_outlined (workspace : Workspace) (path : Path) :
    workspace.outlined.start path = (workspace.start path).map FileTree.outline := by
  unfold start
  split
  · rfl
  · have led : FileTree.trail? workspace.outlined.workingDirectory [workspace.outlined.tree] =
        (FileTree.trail? workspace.workingDirectory [workspace.tree]).map (List.map FileTree.outline) :=
      FileTree.trail?_outline workspace.workingDirectory [workspace.tree]
    rw [led, List.map_append, List.map_replicate]
    cases FileTree.trail? workspace.workingDirectory [workspace.tree] <;> rfl

/-- **What is at a path has its outline at the path in the outlined workspace.** -/
theorem locate_outlined (workspace : Workspace) (path : Path) :
    workspace.outlined.locate path = (workspace.locate path).map FileTree.outline := by
  unfold locate
  split
  · rfl
  split
  · rfl
  split
  · rfl
  rw [start_outlined, FileTree.walk_outline]
  rcases FileTree.walk (Text.segments '/' path.text.toList) (workspace.start path) with
    fault | ⟨_ | ⟨tree, above⟩⟩ <;> rfl

variable (workspace : Workspace) (path : Path)

theorem holds_outlined : workspace.outlined.holds path = workspace.holds path := by
  rw [holds, holds, locate_outlined]
  cases workspace.locate path <;> rfl

theorem holdsFile_outlined : workspace.outlined.holdsFile path = workspace.holdsFile path := by
  rw [holdsFile, holdsFile, locate_outlined]
  cases workspace.locate path with
  | error fault => rfl
  | ok tree => exact congrArg (!·) (FileTree.isDirectory_outline tree)

theorem holdsDirectory_outlined :
    workspace.outlined.holdsDirectory path = workspace.holdsDirectory path := by
  rw [holdsDirectory, holdsDirectory, locate_outlined]
  cases workspace.locate path with
  | error fault => rfl
  | ok tree => exact FileTree.isDirectory_outline tree

theorem entriesAt_outlined :
    workspace.outlined.entriesAt path =
      (workspace.entriesAt path).map fun entry => (entry.1, entry.2.outline) := by
  rw [entriesAt, entriesAt, locate_outlined]
  cases workspace.locate path with
  | error fault => rfl
  | ok tree => exact FileTree.entries_outline tree

end Workspace

end ManifestLint
