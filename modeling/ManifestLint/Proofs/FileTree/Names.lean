import ManifestLint.FileTree.Workspace

/-!
# Names in a tree

What holds of all names in a tree holds of those in each part of it, so it holds of those in whatever
is found at a path. `IsEntryName` is what a file system grants of every name.
-/

namespace ManifestLint

/-- What the name of an entry can be. It names something other than a directory itself and the one
above it, and it holds neither the slash nor the character that ends a path. -/
structure IsEntryName (name : String) : Prop where
  stands : Path.Component.ofSegment? name.toList = some (.name name)
  slashless : '/' ∉ name.toList
  nulless : '\x00' ∉ name.toList
  short : name.utf8ByteSize ≤ FileTree.nameLimit

instance (name : String) : Decidable (IsEntryName name) :=
  decidable_of_iff (Path.Component.ofSegment? name.toList = some (.name name) ∧
      '/' ∉ name.toList ∧ '\x00' ∉ name.toList ∧ name.utf8ByteSize ≤ FileTree.nameLimit)
    ⟨fun ⟨a, b, c, d⟩ => ⟨a, b, c, d⟩, fun ⟨a, b, c, d⟩ => ⟨a, b, c, d⟩⟩

theorem IsEntryName.ne_dots {name : String} (h : IsEntryName name) : name ≠ "." ∧ name ≠ ".." := by
  constructor <;> rintro rfl
  · exact absurd h.stands (by decide)
  · exact absurd h.stands (by decide)

namespace FileTree

/-- Every name in a tree has a property. -/
inductive AllNames (N : String → Prop) : FileTree → Prop
  | file (content : ByteArray) : AllNames N (.file content)
  | directory {entries : List (String × FileTree)} (names : ∀ entry ∈ entries, N entry.1)
      (trees : ∀ entry ∈ entries, AllNames N entry.2) : AllNames N (.directory entries)

variable {N : String → Prop}

@[simp] theorem allNames_file (content : ByteArray) : (file content).AllNames N := .file content

@[simp] theorem allNames_directory_iff {entries : List (String × FileTree)} :
    (directory entries).AllNames N ↔ ∀ entry ∈ entries, N entry.1 ∧ entry.2.AllNames N := by
  constructor
  · rintro (_ | ⟨names, trees⟩) entry mem
    exact ⟨names entry mem, trees entry mem⟩
  · exact fun h => .directory (fun entry mem => (h entry mem).1) fun entry mem => (h entry mem).2

theorem allNames_of_forall (h : ∀ name, N name) : ∀ tree : FileTree, tree.AllNames N
  | .file content => .file content
  | .directory entries => .directory (fun entry _ => h entry.1) fun entry mem =>
      have : sizeOf entry.2 < sizeOf entries := by
        have := List.sizeOf_lt_of_mem mem
        have : sizeOf entry = 1 + sizeOf entry.1 + sizeOf entry.2 := by cases entry; rfl
        omega
      allNames_of_forall h entry.2

theorem AllNames.imp {N' : String → Prop} (h : ∀ name, N name → N' name) {tree : FileTree}
    (named : tree.AllNames N) : tree.AllNames N' := by
  induction named with
  | file content => exact .file content
  | directory names trees ih => exact .directory (fun entry mem => h _ (names entry mem)) ih

theorem AllNames.of_found {tree child : FileTree} {name : String} (h : tree.AllNames N)
    (found : tree.entry? name = some child) : child.AllNames N := by
  cases h with
  | file content => cases found
  | directory names trees =>
    obtain ⟨before, after, rfl, -⟩ := List.lookup_eq_some_iff.1 found
    exact trees (name, child) (by simp)

theorem AllNames.of_trail? {way : List String} {trail reached : List FileTree}
    (h : ∀ tree ∈ trail, tree.AllNames N) (found : trail? way trail = some reached) :
    ∀ tree ∈ reached, tree.AllNames N := by
  fun_induction trail? way trail with
  | case1 trail => cases found; exact h
  | case2 name way here above child hc ih =>
    refine ih ?_ found
    rintro tree (_ | ⟨_, mem⟩)
    · exact (h here List.mem_cons_self).of_found hc
    · exact h tree mem
  | case3 => cases found
  | case4 => cases found

/-- What one step of a walk can be: into an entry, to the directory above, or none at all. -/
theorem walk_cons_cases {segment : List Char} {rest : List (List Char)} {here : FileTree}
    {above reached : List FileTree} (h : walk (segment :: rest) (here :: above) = .ok reached) :
    here.isDirectory = true ∧
      ((∃ name tree, Path.Component.ofSegment? segment = some (.name name) ∧
          name.utf8ByteSize ≤ nameLimit ∧ here.entry? name = some tree ∧
          walk rest (tree :: here :: above) = .ok reached) ∨
        (Path.Component.ofSegment? segment = some .parent ∧
          walk rest (if above.isEmpty then [here] else above) = .ok reached) ∨
        Path.Component.ofSegment? segment = none ∧ walk rest (here :: above) = .ok reached) := by
  rw [walk] at h
  split at h
  · cases h
  · next inside =>
    refine ⟨by simpa using inside, ?_⟩
    split at h
    · next name stands =>
      split at h
      · cases h
      · next short =>
        split at h
        · next tree found => exact .inl ⟨name, tree, stands, Nat.not_lt.1 short, found, h⟩
        · cases h
    · next stands => exact .inr (.inl ⟨stands, h⟩)
    · next name parent =>
      refine .inr (.inr ⟨?_, h⟩)
      rw [Path.Component.ofSegment?] at name parent ⊢
      split
      · rfl
      · next counts =>
        rw [if_neg counts] at name parent
        split at parent
        · exact absurd rfl parent
        · next other =>
          rw [if_neg other] at name
          exact absurd rfl (name _)

theorem AllNames.of_walk {segments : List (List Char)} {trail reached : List FileTree}
    (h : ∀ tree ∈ trail, tree.AllNames N) (found : walk segments trail = .ok reached) :
    ∀ tree ∈ reached, tree.AllNames N := by
  induction segments generalizing trail with
  | nil => cases found; exact h
  | cons segment rest ih =>
    cases trail with
    | nil => cases found
    | cons here above =>
      have hh := h here List.mem_cons_self
      obtain ⟨-, ⟨name, child, -, -, hc, next⟩ | ⟨-, next⟩ | ⟨-, next⟩⟩ := walk_cons_cases found
      · exact ih (List.forall_mem_cons.2 ⟨hh.of_found hc, h⟩) next
      · refine ih ?_ next
        split
        · exact List.forall_mem_cons.2 ⟨hh, by simp⟩
        · exact fun tree mem => h tree (List.mem_cons_of_mem _ mem)
      · exact ih h next

end FileTree

namespace Workspace

variable {N : String → Prop} {workspace : Workspace}

theorem allNames_start (h : workspace.tree.AllNames N) (path : Path) :
    ∀ tree ∈ workspace.start path, tree.AllNames N := by
  have none : FileTree.empty.AllNames N := .directory (by simp) (by simp)
  unfold start
  split
  · simpa using h
  · intro tree mem
    obtain mem | mem := List.mem_append.1 mem
    · rw [List.eq_of_mem_replicate mem]
      exact none
    · cases found : FileTree.trail? workspace.workingDirectory [workspace.tree] with
      | none =>
        rw [found, Option.getD_none, List.mem_singleton] at mem
        rw [mem]
        exact none
      | some trail =>
        rw [found] at mem
        exact FileTree.AllNames.of_trail? (by simpa using h) found tree mem

/-- What is found at a path is where a walk along it ends. -/
theorem exists_walk_of_locate {path : Path} {tree : FileTree}
    (found : workspace.locate path = .ok tree) :
    ∃ above, FileTree.walk (Text.segments '/' path.text.toList) (workspace.start path) =
      .ok (tree :: above) := by
  unfold locate at found
  split at found
  · cases found
  split at found
  · cases found
  split at found
  · cases found
  cases walked : FileTree.walk (Text.segments '/' path.text.toList) (workspace.start path) with
  | error fault => rw [walked] at found; cases found
  | ok reached =>
    rw [walked] at found
    cases reached with
    | nil => cases found
    | cons here above => cases found; exact ⟨above, rfl⟩

theorem allNames_of_locate (h : workspace.tree.AllNames N) {path : Path} {tree : FileTree}
    (found : workspace.locate path = .ok tree) : tree.AllNames N := by
  obtain ⟨above, walked⟩ := exists_walk_of_locate found
  exact FileTree.AllNames.of_walk (allNames_start h path) walked tree List.mem_cons_self

theorem allNames_entriesAt (h : workspace.tree.AllNames N) (path : Path) :
    ∀ entry ∈ workspace.entriesAt path, N entry.1 := by
  unfold entriesAt
  split
  · next tree found =>
    cases allNames_of_locate h found with
    | file => simp [FileTree.entries]
    | directory names => exact names
  · simp

end Workspace

end ManifestLint
