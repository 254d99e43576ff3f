import ManifestLint.Proofs.FileTree.Places
import ManifestLint.Proofs.Paths.Relocation

/-!
# A part of a tree in another place

A workspace stands in a directory of its tree. Followed from there, a path that never goes up finds
what it finds in the tree that is this directory alone. So of what is below its working directory, a
workspace tells nothing about where that is. Main statement: `StandsIn.locate_eq`.

* `walk_names`, `walk_inward`: a walk down to the directory, and one that goes on from there;
* `StandsIn.holds_of_way`: what is on the way to the directory.
-/

namespace ManifestLint

theorem leadDown_map {names : List String} (named : ∀ name ∈ names, IsEntryName name) :
    Path.LeadDown (names.map String.toList) where
  slashless segment mem := by
    obtain ⟨name, onWay, rfl⟩ := List.mem_map.1 mem
    exact (named name onWay).slashless
  full segment mem empty := by
    obtain ⟨name, onWay, rfl⟩ := List.mem_map.1 mem
    have stands := (named name onWay).stands
    rw [empty] at stands
    cases stands

namespace FileTree

/-- The place that a trail comes to. -/
def tip : List FileTree → Except Fault FileTree
  | [] => throw .notFound
  | tree :: _ => return tree

theorem walk_vacuous {segment : List Char} (h : Path.isVacuous segment = true)
    (rest : List (List Char)) {here : FileTree} (inside : here.isDirectory = true)
    (above : List FileTree) : walk (segment :: rest) (here :: above) = walk rest (here :: above) := by
  rw [walk, Path.Component.ofSegment?, if_pos h]
  simp [inside]

/-- A walk from the top along an absolute path takes the steps of its segments. -/
theorem walk_absolute {segments : List (List Char)} (slashless : Path.Slashless segments)
    {top : FileTree} (inside : top.isDirectory = true) :
    walk (Text.segments '/' (Path.absolute segments).text.toList) [top] = walk segments [top] := by
  by_cases hne : segments = []
  · subst hne
    exact (walk_vacuous rfl _ inside _).trans (walk_vacuous rfl _ inside _)
  · rw [Path.segments_toList_absolute hne slashless, walk_vacuous rfl _ inside]

theorem isDirectory_of_found {tree child : FileTree} {name : String}
    (h : tree.entry? name = some child) : tree.isDirectory = true := by
  cases tree with
  | file content => cases h
  | directory entries => rfl

theorem walk_entry {name : String} (isName : IsEntryName name) {here child : FileTree}
    (found : here.entry? name = some child) (rest : List (List Char)) (above : List FileTree) :
    walk (name.toList :: rest) (here :: above) = walk rest (child :: here :: above) := by
  rw [walk, isName.stands]
  simp [isDirectory_of_found found, Nat.not_lt.2 isName.short, found]

/-- A walk along the names of a way comes to the end of the way and goes on from there. -/
theorem walk_names {way : List String} (named : ∀ name ∈ way, IsEntryName name)
    {trail reached : List FileTree} (led : trail? way trail = some reached)
    (rest : List (List Char)) :
    walk (way.map String.toList ++ rest) trail = walk rest reached := by
  fun_induction trail? way trail with
  | case1 trail => cases led; rfl
  | case2 name way here above child found ih =>
    obtain ⟨isName, named⟩ := List.forall_mem_cons.1 named
    rw [List.map_cons, List.cons_append, walk_entry isName found]
    exact ih named led
  | case3 => cases led
  | case4 => cases led

/-- What a walk that never goes up comes to hangs on nothing above where it starts. -/
theorem walk_inward {segments : List (List Char)} (inward : Path.Inward segments) (here : FileTree)
    (above other : List FileTree) :
    walk segments (here :: above) >>= tip = walk segments (here :: other) >>= tip := by
  induction segments generalizing here above other with
  | nil => rfl
  | cons segment rest ih =>
    obtain ⟨⟨-, up⟩, later⟩ := List.forall_mem_cons.1 inward
    rw [walk, walk]
    split
    · rfl
    · split
      · next name stands =>
        split
        · rfl
        · split
          · exact ih later _ _ _
          · rfl
      · next stands => exact absurd stands (Path.ofSegment?_ne_parent up)
      · exact ih later _ _ _

end FileTree

namespace Workspace

/-- A workspace stands in a directory of its tree: all that is below the working directory is this. -/
structure StandsIn (workspace : Workspace) (directory : FileTree) : Prop where
  present : workspace.removed = 0
  named : ∀ name ∈ workspace.workingDirectory, IsEntryName name
  leads : ∃ above, FileTree.trail? workspace.workingDirectory [workspace.tree] =
    some (directory :: above)
  inside : directory.isDirectory = true

/-- A tree with nothing above it. -/
def alone (tree : FileTree) : Workspace := ⟨tree, [], 0⟩

/-- The segments of the way to the working directory. -/
def way (workspace : Workspace) : List (List Char) := workspace.workingDirectory.map String.toList

namespace StandsIn

variable {workspace : Workspace} {directory : FileTree}

theorem alone_self (inside : directory.isDirectory = true) :
    (Workspace.alone directory).StandsIn directory :=
  ⟨rfl, by simp [alone], ⟨[], rfl⟩, inside⟩

theorem lead (h : workspace.StandsIn directory) : Path.LeadDown workspace.way :=
  leadDown_map h.named

theorem nulless (h : workspace.StandsIn directory) : ∀ segment ∈ workspace.way, '\x00' ∉ segment := by
  intro segment mem
  obtain ⟨name, onWay, rfl⟩ := List.mem_map.1 mem
  exact (h.named name onWay).nulless

theorem currentPath?_eq (h : workspace.StandsIn directory) :
    workspace.currentPath? = some (Path.absolute workspace.way) := by
  rw [currentPath?, if_pos h.present]
  refine congrArg some (Path.ext_toList ?_)
  rw [Path.toList_text_absolute, ← Text.intercalate_eq_joined, way, String.toList_append,
    String.toList_intercalate]
  rfl

theorem isDirectory_top (h : workspace.StandsIn directory) : workspace.tree.isDirectory = true := by
  obtain ⟨above, led⟩ := h.leads
  cases way : workspace.workingDirectory with
  | nil =>
    rw [way] at led
    cases led
    exact h.inside
  | cons name rest =>
    rw [way, FileTree.trail?] at led
    split at led
    · next found => exact FileTree.isDirectory_of_found found
    · cases led

end StandsIn

/-- Where an absolute path that is short enough leads. -/
theorem locate_absolute {workspace : Workspace} {segments : List (List Char)}
    (slashless : Path.Slashless segments) (inside : workspace.tree.isDirectory = true)
    (short : (Path.absolute segments).text.utf8ByteSize < pathLimit) :
    workspace.locate (Path.absolute segments) =
      if ∃ segment ∈ segments, '\x00' ∈ segment then .error .nulInPath
      else FileTree.walk segments [workspace.tree] >>= FileTree.tip := by
  have nul : (Path.absolute segments).text.toList.contains '\x00' = true ↔
      ∃ segment ∈ segments, '\x00' ∈ segment := by
    rw [List.contains_iff_mem, Path.toList_text_absolute, List.mem_cons,
      Text.mem_joined_iff (by decide)]
    simp
  have filled : (Path.absolute segments).text.isEmpty = false := by
    simp [← String.toList_eq_nil_iff]
  simp only [locate, nul, filled, Bool.false_eq_true, if_false, if_neg (Nat.not_le.2 short), start,
    Path.isAbsolute_absolute, if_true, FileTree.walk_absolute slashless inside]
  rfl

namespace StandsIn

variable {workspace : Workspace} {directory : FileTree}

/-- **What a path finds below the working directory is found in the directory alone.** -/
theorem locate_eq (h : workspace.StandsIn directory) {path own : Path}
    (same : Path.Relocated workspace.way path own) (short : path.text.utf8ByteSize < pathLimit) :
    workspace.locate path = (alone directory).locate own := by
  have shorter := Nat.lt_of_le_of_lt same.utf8ByteSize_le short
  obtain ⟨segments, inward, rfl, rfl⟩ := same
  obtain ⟨above, led⟩ := h.leads
  have nul : (∃ segment ∈ workspace.way ++ segments, '\x00' ∈ segment) ↔
      ∃ segment ∈ segments, '\x00' ∈ segment := by
    simp only [List.mem_append, or_and_right, exists_or, or_iff_right_iff_imp]
    rintro ⟨segment, mem, holds⟩
    exact absurd holds (h.nulless segment mem)
  rw [locate_absolute (h.lead.slashless.append inward.slashless) h.isDirectory_top short,
    locate_absolute inward.slashless h.inside shorter, way, FileTree.walk_names h.named led,
    FileTree.walk_inward inward directory above []]
  simp only [way] at nul
  simp only [nul]
  rfl

theorem holds_eq (h : workspace.StandsIn directory) {path own : Path}
    (same : Path.Relocated workspace.way path own) (short : path.text.utf8ByteSize < pathLimit) :
    workspace.holds path = (alone directory).holds own := by
  rw [holds, holds, h.locate_eq same short]

theorem holdsFile_eq (h : workspace.StandsIn directory) {path own : Path}
    (same : Path.Relocated workspace.way path own) (short : path.text.utf8ByteSize < pathLimit) :
    workspace.holdsFile path = (alone directory).holdsFile own := by
  rw [holdsFile, holdsFile, h.locate_eq same short]

theorem holdsDirectory_eq (h : workspace.StandsIn directory) {path own : Path}
    (same : Path.Relocated workspace.way path own) (short : path.text.utf8ByteSize < pathLimit) :
    workspace.holdsDirectory path = (alone directory).holdsDirectory own := by
  rw [holdsDirectory, holdsDirectory, h.locate_eq same short]

theorem readText_eq (h : workspace.StandsIn directory) {path own : Path}
    (same : Path.Relocated workspace.way path own) (short : path.text.utf8ByteSize < pathLimit) :
    workspace.readText path = (alone directory).readText own := by
  rw [readText, readText, h.locate_eq same short]

theorem entriesAt_eq (h : workspace.StandsIn directory) {path own : Path}
    (same : Path.Relocated workspace.way path own) (short : path.text.utf8ByteSize < pathLimit) :
    workspace.entriesAt path = (alone directory).entriesAt own := by
  rw [entriesAt, entriesAt, h.locate_eq same short]

/-- What is on the way to the working directory is there. -/
theorem holds_of_way (h : workspace.StandsIn directory) {front back : List String}
    (split : workspace.workingDirectory = front ++ back)
    (short : (Path.absolute (front.map String.toList)).text.utf8ByteSize < pathLimit) :
    workspace.holds (Path.absolute (front.map String.toList)) = true := by
  obtain ⟨above, led⟩ := h.leads
  rw [split, FileTree.trail?_append] at led
  obtain ⟨reached, led, last⟩ := Option.bind_eq_some_iff.1 led
  have named (name : String) (mem : name ∈ front) : IsEntryName name :=
    h.named name (split ▸ List.mem_append_left back mem)
  have nulless : ¬ ∃ segment ∈ front.map String.toList, '\x00' ∈ segment := by
    rintro ⟨segment, mem, holds⟩
    obtain ⟨name, onWay, rfl⟩ := List.mem_map.1 mem
    exact (named name onWay).nulless holds
  have walked := FileTree.walk_names named led []
  rw [List.append_nil, FileTree.walk] at walked
  rw [holds, locate_absolute (leadDown_map named).slashless h.isDirectory_top short, if_neg nulless,
    walked]
  cases reached with
  | nil => cases back <;> cases last
  | cons here beyond => rfl

end StandsIn

end Workspace

end ManifestLint
