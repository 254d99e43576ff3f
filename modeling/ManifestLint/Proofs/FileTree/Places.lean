import ManifestLint.Proofs.FileTree.Names
import ManifestLint.Proofs.Paths.Components

/-!
# Places

The names on the way to a path, read off its text, lead to what is found there: nothing in a tree
stands for something elsewhere. So two paths with the same way denote the same file. Main statements:
`trail?_names`, `eq_of_names_eq`.
-/

namespace ManifestLint

namespace Path

/-- A single dot at the start of a relative path is the only component that its segments do not
stand for. -/
theorem components_of_relative {path : Path} (h : path.isAbsolute = false) :
    path.components = (Text.segments '/' path.text.toList).filterMap Component.ofSegment? ∨
      path.components =
        .current :: (Text.segments '/' path.text.toList).filterMap Component.ofSegment? := by
  obtain ⟨first, body, cut⟩ := List.exists_cons_of_ne_nil (Text.segments_ne_nil '/' path.text.toList)
  rw [components_of_segments cut, cut]
  split
  · exact .inr rfl
  split
  · next rooted =>
    have text := Text.joined_segments '/' path.text.toList
    rw [cut, rooted.1, Text.joined_cons _ _ rooted.2] at text
    rw [isAbsolute, ← text] at h
    cases h
  · exact .inl rfl

end Path

namespace FileTree

theorem trail?_append (front back : List String) (trail : List FileTree) :
    trail? (front ++ back) trail = (trail? front trail).bind (trail? back) := by
  fun_induction trail? front trail with
  | case1 => rfl
  | case2 name way here above child found ih => rw [List.cons_append, trail?, found]; exact ih
  | case3 name way here above missing => rw [List.cons_append, trail?, missing]; rfl
  | case4 => rfl

theorem trail?_concat {way : List String} {name : String} {trail reached : List FileTree}
    (h : trail? (way ++ [name]) trail = some reached) :
    ∃ here above child, trail? way trail = some (here :: above) ∧ here.entry? name = some child ∧
      reached = child :: here :: above := by
  rw [trail?_append] at h
  obtain ⟨before, led, last⟩ := Option.bind_eq_some_iff.1 h
  cases before with
  | nil => cases last
  | cons here above =>
    rw [trail?] at last
    split at last
    · next child found => cases last; exact ⟨here, above, child, led, found, rfl⟩
    · cases last

/-- Above the end of a way is the end of the way without its last name; the top is above itself. -/
theorem trail?_dropLast {way : List String} {top here : FileTree} {above : List FileTree}
    (h : trail? way [top] = some (here :: above)) :
    trail? way.dropLast [top] = some (if above.isEmpty then [here] else above) := by
  by_cases hw : way = []
  · subst hw
    cases h
    rfl
  · obtain ⟨front, name, rfl⟩ : ∃ front name, way = front ++ [name] :=
      ⟨_, _, (List.dropLast_concat_getLast hw).symm⟩
    obtain ⟨place, beyond, child, led, -, same⟩ := trail?_concat h
    cases same
    rw [List.dropLast_concat, led]
    rfl

/-- A walk from the end of a way goes on along the way, as its segments say. -/
theorem trail?_of_walk {top : FileTree} {segments : List (List Char)} {way : List String}
    {trail reached : List FileTree} (led : trail? way [top] = some trail)
    (walked : walk segments trail = .ok reached) :
    trail? ((segments.filterMap Path.Component.ofSegment?).foldl Workspace.names.step way) [top] =
      some reached := by
  induction segments generalizing way trail with
  | nil => cases walked; exact led
  | cons segment rest ih =>
    cases trail with
    | nil => cases walked
    | cons here above =>
      obtain ⟨-, ⟨name, child, stands, -, found, next⟩ | ⟨stands, next⟩ | ⟨stands, next⟩⟩ :=
        walk_cons_cases walked
      · rw [List.filterMap_cons_some stands, List.foldl_cons]
        refine ih ?_ next
        rw [Workspace.names.step, trail?_append, led, Option.bind_some, trail?, found]
        rfl
      · rw [List.filterMap_cons_some stands, List.foldl_cons]
        exact ih (trail?_dropLast led) next
      · rw [List.filterMap_cons_none stands]
        exact ih led next

end FileTree

namespace Workspace

variable {workspace : Workspace}

theorem names_of_isAbsolute {path : Path} (h : path.isAbsolute = true) :
    workspace.names path =
      ((Text.segments '/' path.text.toList).filterMap Path.Component.ofSegment?).foldl names.step [] := by
  obtain ⟨segments, hne, slashless, rfl⟩ := Path.exists_eq_absolute h
  rw [names, Path.components_absolute slashless, Path.segments_toList_absolute hne slashless]
  rfl

theorem names_of_relative {path : Path} (h : path.isAbsolute = false) :
    workspace.names path =
      ((Text.segments '/' path.text.toList).filterMap Path.Component.ofSegment?).foldl names.step
        workspace.workingDirectory := by
  obtain read | read := Path.components_of_relative h
  · rw [names, read]
  · rw [names, read]
    rfl

/-- What is found at a path is at the end of the way that is read off its text. -/
theorem trail?_names (present : workspace.removed = 0) {here : List FileTree}
    (led : FileTree.trail? workspace.workingDirectory [workspace.tree] = some here) {path : Path}
    {tree : FileTree} (found : workspace.locate path = .ok tree) :
    ∃ above, FileTree.trail? (workspace.names path) [workspace.tree] = some (tree :: above) := by
  obtain ⟨above, walked⟩ := exists_walk_of_locate found
  refine ⟨above, ?_⟩
  cases absolute : path.isAbsolute with
  | true =>
    rw [start, if_pos absolute] at walked
    rw [names_of_isAbsolute absolute]
    exact FileTree.trail?_of_walk rfl walked
  | false =>
    rw [start, absolute, present, led] at walked
    rw [names_of_relative absolute]
    exact FileTree.trail?_of_walk led walked

/-- Paths with the same way lead to the same. -/
theorem eq_of_names_eq (present : workspace.removed = 0) {here : List FileTree}
    (led : FileTree.trail? workspace.workingDirectory [workspace.tree] = some here) {a b : Path}
    (same : workspace.names a = workspace.names b) {first second : FileTree}
    (foundFirst : workspace.locate a = .ok first) (foundSecond : workspace.locate b = .ok second) :
    first = second := by
  obtain ⟨above, atFirst⟩ := trail?_names present led foundFirst
  obtain ⟨beyond, atSecond⟩ := trail?_names present led foundSecond
  rw [same, atSecond] at atFirst
  cases atFirst
  rfl

end Workspace

end ManifestLint
