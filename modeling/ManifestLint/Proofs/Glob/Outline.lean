import ManifestLint.Proofs.FileTree.Outline
import ManifestLint.Settings

/-!
# Patterns and what is in files

A pattern is expanded by names alone, and so are the entries of a configuration. Main statement:
`expandSegments_outlined`.
-/

namespace ManifestLint

namespace Glob

mutual

theorem descendants_outline (path : Path) (tree : FileTree) :
    descendants path tree.outline =
      (descendants path tree).map fun found => (found.1, found.2.1, found.2.2.outline) := by
  cases tree with
  | file content => rfl
  | directory entries => exact descendantEntries_outline path entries

theorem descendantEntries_outline (path : Path) (entries : List (String × FileTree)) :
    descendantEntries path (FileTree.outlineEntries entries) =
      (descendantEntries path entries).map fun found => (found.1, found.2.1, found.2.2.outline) := by
  cases entries with
  | nil => rfl
  | cons entry rest =>
    obtain ⟨name, tree⟩ := entry
    rw [FileTree.outlineEntries, descendantEntries, descendantEntries, descendants_outline,
      descendantEntries_outline, List.map_append, List.map_cons]

end

theorem subtree_outlined (workspace : Workspace) (path : Path) :
    subtree workspace.outlined path =
      (subtree workspace path).map fun found => (found.1, found.2.1, found.2.2.outline) := by
  rw [subtree, subtree, Workspace.locate_outlined]
  cases workspace.locate path with
  | error fault => rfl
  | ok tree => exact descendants_outline path tree

theorem expandSegments_outlined (workspace : Workspace) (directoriesOnly : Bool)
    (segments : List Segment) (path : Path) :
    expandSegments workspace.outlined directoriesOnly segments path =
      expandSegments workspace directoriesOnly segments path := by
  induction segments, path using expandSegments.induct workspace directoriesOnly with
  | case1 path outside => rw [expandSegments, expandSegments, Workspace.holdsDirectory_outlined]
  | case2 path inside => rw [expandSegments, expandSegments, Workspace.holdsDirectory_outlined]
  | case3 text rest path name next there held ih =>
    rw [expandSegments, expandSegments, Workspace.holdsDirectory_outlined, Workspace.holds_outlined,
      ih]
  | case4 text rest path name next there missing =>
    rw [expandSegments, expandSegments, Workspace.holdsDirectory_outlined, Workspace.holds_outlined,
      if_neg missing, if_neg missing]
  | case5 tokens rest path inside ihDots ihNames =>
    rw [expandSegments, expandSegments, Workspace.holdsDirectory_outlined,
      Workspace.entriesAt_outlined, List.flatMap_map]
    simp only [ihDots, ihNames]
  | case6 tokens rest path outside =>
    rw [expandSegments, expandSegments, Workspace.holdsDirectory_outlined, if_neg outside,
      if_neg outside]
  | case7 path =>
    rw [expandSegments, expandSegments, subtree_outlined, List.filter_map, List.map_map]
    simp [Function.comp_def]
  | case8 segment rest path ih =>
    rw [expandSegments, expandSegments, subtree_outlined, List.flatMap_map]
    simp only [ih]

theorem Pattern.expand_outlined (pattern : Pattern) (workspace : Workspace) :
    pattern.expand workspace.outlined = pattern.expand workspace :=
  expandSegments_outlined workspace _ _ _

end Glob

end ManifestLint
