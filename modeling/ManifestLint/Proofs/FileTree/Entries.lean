import ManifestLint.Proofs.FileTree.Relocation

/-!
# Entries of directories

A path that goes on by the name of an entry leads somewhere if the path leads to a directory which has
that entry. The empty path counts as the directory from which relative paths start. Main statement:
`holds_entry_iff`.

* `walk_append`, `walk_concat_iff`: a walk in two parts, and one whose last step goes into an entry;
* `Contains`: what it takes that a directory is seen to have an entry.
-/

namespace ManifestLint

namespace FileTree

theorem walk_append (front back : List (List Char)) (trail : List FileTree) :
    walk (front ++ back) trail = walk front trail >>= walk back := by
  induction front generalizing trail with
  | nil => rfl
  | cons segment rest ih =>
    cases trail with
    | nil => rfl
    | cons here above =>
      rw [List.cons_append, walk, walk]
      split
      · rfl
      · split
        · split
          · rfl
          · split
            · exact ih _
            · rfl
        · exact ih _
        · exact ih _

/-- Before a further step, a walk has come to a place. -/
theorem exists_of_walk_append {front rest : List (List Char)} {segment : List Char}
    {trail reached : List FileTree} (h : walk (front ++ segment :: rest) trail = .ok reached) :
    ∃ here above, walk front trail = .ok (here :: above) ∧
      walk (segment :: rest) (here :: above) = .ok reached := by
  rw [walk_append] at h
  cases before : walk front trail with
  | error fault =>
    rw [before] at h
    cases h
  | ok passed =>
    rw [before] at h
    cases passed with
    | nil => cases h
    | cons here above => exact ⟨here, above, rfl, h⟩

/-- An empty segment at the end of a path leads on from a directory to itself. -/
theorem walk_withoutEnd (segments : List (List Char)) (trail : List FileTree) {here : FileTree}
    {above : List FileTree} (inside : here.isDirectory = true) :
    walk (Path.withoutEnd segments) trail = .ok (here :: above) ↔
      walk segments trail = .ok (here :: above) := by
  have vacuous : Path.isVacuous [] = true := rfl
  obtain split | ⟨-, same⟩ := Path.eq_concat_nil_or segments
  · rw [split, Path.withoutEnd_concat_nil]
    constructor
    · intro walked
      rw [walk_append, walked]
      exact walk_vacuous vacuous [] inside above
    · intro walked
      obtain ⟨place, beyond, before, last⟩ := exists_of_walk_append walked
      rw [walk_vacuous vacuous [] (walk_cons_cases last).1] at last
      rwa [before]
  · rw [same]

/-- The last step of a path into an entry is taken from a directory that has it. -/
theorem walk_concat_iff {name : String} (isName : IsEntryName name) (segments : List (List Char))
    (trail : List FileTree) {child : FileTree} {reached : List FileTree} :
    walk (segments ++ [name.toList]) trail = .ok (child :: reached) ↔
      ∃ here above, walk segments trail = .ok (here :: above) ∧ here.entry? name = some child ∧
        reached = here :: above := by
  constructor
  · intro walked
    obtain ⟨here, above, before, last⟩ := exists_of_walk_append walked
    obtain ⟨-, ⟨other, tree, stands, -, found, done⟩ | ⟨stands, -⟩ | ⟨stands, -⟩⟩ :=
      walk_cons_cases last
    · rw [isName.stands] at stands
      cases stands
      cases done
      exact ⟨here, above, before, found, rfl⟩
    · rw [isName.stands] at stands
      cases stands
    · rw [isName.stands] at stands
      cases stands
  · rintro ⟨here, above, walked, found, rfl⟩
    rw [walk_append, walked]
    exact walk_entry isName found [] above

end FileTree

namespace Workspace

variable {workspace : Workspace}

theorem holds_iff {path : Path} :
    workspace.holds path = true ↔
      '\x00' ∉ path.text.toList ∧ path.text ≠ "" ∧ path.text.utf8ByteSize < pathLimit ∧
        ∃ tree above, FileTree.walk (Text.segments '/' path.text.toList) (workspace.start path) =
          .ok (tree :: above) := by
  unfold holds
  constructor
  · intro held
    split at held
    · next tree found =>
      refine ⟨?_, ?_, ?_, tree, exists_walk_of_locate found⟩
      · intro nul
        rw [locate, if_pos (by simpa using nul)] at found
        cases found
      · intro empty
        rw [locate, empty] at found
        cases found
      · refine Nat.lt_of_not_le fun long => ?_
        unfold locate at found
        rw [if_pos long] at found
        split at found
        · cases found
        · split at found <;> cases found
    · cases held
  · rintro ⟨nulless, nonempty, short, tree, above, walked⟩
    have located : workspace.locate path = .ok tree := by
      rw [locate, if_neg (by simpa using nulless), if_neg (by simpa using nonempty),
        if_neg (Nat.not_le.2 short), walked]
      rfl
    rw [located]

/-- Whether a path leads to a directory that has an entry of a name. The empty path leads to where relative
paths start; no path leads anywhere that is too long, or that holds the character that ends a path. -/
structure Contains (workspace : Workspace) (directory : Path) (name : String) : Prop where
  nulless : '\x00' ∉ directory.text.toList
  short : (directory.entry name).text.utf8ByteSize < pathLimit
  led : ∃ here above child, FileTree.walk (Text.segments '/' directory.text.toList)
    (workspace.start directory) = .ok (here :: above) ∧ here.entry? name = some child

theorem holds_entry_iff {directory : Path} {name : String} (isName : IsEntryName name) :
    workspace.holds (directory.entry name) = true ↔ workspace.Contains directory name := by
  have relative := Path.isAbsolute_of_slashless isName.slashless
  have same : workspace.start (directory.entry name) = workspace.start directory := by
    rw [start, start, Path.entry, Path.isAbsolute_join_of_relative directory relative]
  have segments : Text.segments '/' (directory.entry name).text.toList =
      Path.withoutEnd (Text.segments '/' directory.text.toList) ++ [name.toList] := by
    rw [Path.entry, Path.segments_join directory relative, Text.segments_of_not_mem isName.slashless]
  rw [holds_iff, same, segments]
  have nul : '\x00' ∈ (directory.entry name).text.toList ↔ '\x00' ∈ directory.text.toList := by
    rw [Path.entry, Path.mem_toList_join_iff directory relative (by decide)]
    exact or_iff_left isName.nulless
  rw [nul]
  constructor
  · rintro ⟨nulless, -, short, child, reached, walked⟩
    obtain ⟨here, above, led, found, rfl⟩ := (FileTree.walk_concat_iff isName _ _).1 walked
    have inside := FileTree.isDirectory_of_found found
    exact ⟨nulless, short, here, above, child, (FileTree.walk_withoutEnd _ _ inside).1 led, found⟩
  · rintro ⟨nulless, short, here, above, child, led, found⟩
    have inside := FileTree.isDirectory_of_found found
    have last := (FileTree.walk_withoutEnd _ _ inside).2 led
    refine ⟨nulless, ?_, short, child, here :: above,
      (FileTree.walk_concat_iff isName _ _).2 ⟨here, above, last, found, rfl⟩⟩
    intro empty
    rw [empty] at segments
    have nameless : name.toList = [] := by simpa [Text.segments] using congrArg List.getLast? segments
    have stands := isName.stands
    rw [nameless] at stands
    cases stands

end Workspace

end ManifestLint
