import ManifestLint.Proofs.Glob.Names
import ManifestLint.Proofs.Settings.Manifests

/-!
# Entries and the root

An entry of a configuration is seen from the root of the project, so what it stands for goes on from
the root. That holds as long as the root has no wildcards in its own path: the pattern is made of the
whole path, and a root that reads as a pattern stands for other directories.

* `root_prefix_of_mem_expandEntry`: entries below a root without wildcards stay below it;
* `expandEntry_outside_root`: an entry below a root with wildcards that does not.
-/

namespace ManifestLint

namespace Glob

/-- What is found behind some names is found below the path that they lead to. -/
theorem mem_expandSegments_names {workspace : Workspace} {directoriesOnly : Bool}
    {names : List (List Char)} (slashless : Path.Slashless names) {segments : List Segment}
    {path found : Path} (absolute : path.isAbsolute = true)
    (mem : found ∈ expandSegments workspace directoriesOnly (names.map .name ++ segments) path) :
    ∃ reached : Path, reached.isAbsolute = true ∧
      reached.components = path.components ++ names.filterMap Path.Component.ofSegment? ∧
      found ∈ expandSegments workspace directoriesOnly segments reached := by
  induction names generalizing path with
  | nil => exact ⟨path, absolute, by simp, mem⟩
  | cons name rest ih =>
    rw [List.map_cons, List.cons_append, expandSegments, below_of_isAbsolute absolute] at mem
    have bare : '/' ∉ (String.ofList name).toList := by
      rw [String.toList_ofList]
      exact slashless name List.mem_cons_self
    generalize (if String.ofList name = "." ∨ String.ofList name = ".." then
      workspace.holdsDirectory path else workspace.holds (path.entry (String.ofList name))) =
        present at mem
    cases present with
    | false => cases mem
    | true =>
      obtain ⟨reached, hr, split, later⟩ := ih (fun other mem => slashless other
        (List.mem_cons_of_mem _ mem)) (Path.isAbsolute_entry absolute _) mem
      refine ⟨reached, hr, ?_, later⟩
      rw [split, Path.components_entry absolute bare, String.toList_ofList, List.append_assoc,
        ← List.filterMap_append, List.singleton_append]

/-- What is found below an absolute path goes on from it. -/
theorem prefix_of_mem_expandSegments {workspace : Workspace}
    (named : workspace.tree.AllNames IsEntryName) {directoriesOnly : Bool} {segments : List Segment}
    (slashless : ∀ text, .name text ∈ segments → '/' ∉ text) {path found : Path}
    (absolute : path.isAbsolute = true)
    (mem : found ∈ expandSegments workspace directoriesOnly segments path) :
    path.components <+: found.components := by
  have goesOn : found.isAbsolute = true ∧ path.components <+: found.components := by
    refine Visits.keeps (N := fun name => '/' ∉ name.toList)
      (P := fun visited => visited.isAbsolute = true ∧ path.components <+: visited.components)
      (fun _ h => h.1) ?_ (named.imp fun _ h => h.slashless) ⟨by decide, by decide⟩ ?_
      ⟨absolute, List.prefix_rfl⟩ (visits_of_mem_expandSegments mem)
    · rintro visited name ⟨inside, below⟩ bare
      refine ⟨Path.isAbsolute_entry inside name, below.trans ?_⟩
      rw [Path.components_entry inside bare]
      exact List.prefix_append _ _
    · intro text mem
      rw [String.toList_ofList]
      exact slashless text mem
  exact goesOn.2

/-- A pattern seen from a root without wildcards begins with names that lead to the root. -/
theorem exists_names_of_ofString? {root : Path} (absolute : root.isAbsolute = true)
    (plain : Plain root.text.toList) {entry : String} (relative : (Path.mk entry).isAbsolute = false)
    {pattern : Pattern} (read : Pattern.ofString? (root.entry entry).text = some pattern) :
    ∃ (names : List (List Char)) (rest : List Segment), pattern.segments = names.map .name ++ rest ∧
      Path.Slashless names ∧
        root.components = .root :: names.filterMap Path.Component.ofSegment? := by
  obtain ⟨segments, -, slashless, rfl⟩ := Path.exists_eq_absolute absolute
  have plainPart (text : List Char) (mem : text ∈ Path.withoutEnd segments) : Plain text :=
    fun c hc => plain c (by
      rw [Path.toList_text_absolute]
      exact List.mem_cons_of_mem _ (Text.mem_joined (Path.mem_of_mem_withoutEnd mem) hc))
  rw [Path.components_absolute slashless, ← Path.filterMap_withoutEnd]
  rw [Path.entry, Path.join_absolute slashless relative] at read
  by_cases empty : entry = ""
  · subst empty
    have plainAll : ∀ text ∈ Path.withoutEnd segments ++ Text.segments '/' [], Plain text := by
      intro text mem
      obtain mem | mem := List.mem_append.1 mem
      · exact plainPart text mem
      · obtain rfl := List.mem_singleton.1 mem
        simp [Plain]
    obtain ⟨names, same, bare, directoriesOnly, whole⟩ :=
      ofString?_absolute (slashless.withoutEnd.append (Path.slashless_segments [])) plainAll
    rw [String.toList_empty, whole] at read
    cases read
    refine ⟨names, [], (List.append_nil _).symm, bare, ?_⟩
    rw [same, List.filterMap_append]
    exact congrArg (Path.Component.root :: ·) (List.append_nil _).symm
  · rw [ofString?_absolute_append slashless.withoutEnd plainPart relative empty] at read
    obtain ⟨own, -, rfl⟩ := Option.map_eq_some_iff.1 read
    exact ⟨_, own.segments, rfl, slashless.withoutEnd, rfl⟩

end Glob

namespace Settings

variable {workspace : Workspace} {root : Path} {entry : String}

/-- **Entries stay below the root.** Where the path of the root has no wildcards, all that a relative
entry stands for goes on from the root. -/
theorem root_prefix_of_mem_expandEntry (named : workspace.tree.AllNames IsEntryName)
    (absolute : root.isAbsolute = true) (plain : Glob.Plain root.text.toList)
    (relative : (Path.mk entry).isAbsolute = false) :
    ∀ path ∈ (expandEntry workspace root entry).value, root.components <+: path.components := by
  intro path mem
  obtain rfl | ⟨pattern, read, expanded, -⟩ := mem_expandEntry mem
  · rw [Path.entry, Path.components_join absolute relative]
    exact List.prefix_append _ _
  · obtain ⟨names, rest, split, slashless, same⟩ :=
      Glob.exists_names_of_ofString? absolute plain relative read
    rw [Glob.Pattern.expand, split, absolute_of_ofString? (Path.isAbsolute_entry absolute entry) read,
      if_pos rfl] at expanded
    obtain ⟨reached, hr, there, found⟩ := Glob.mem_expandSegments_names slashless rfl expanded
    have here : reached.components = root.components := by
      rw [there, same]
      rfl
    rw [← here]
    refine Glob.prefix_of_mem_expandSegments named (fun text mem => ?_) hr found
    refine Glob.slashless_of_mem_pattern read ?_
    rw [split]
    exact List.mem_append_right _ mem

/-- An entry that is a pattern, below a root next to another directory. -/
theorem root_prefix_of_mem_expandEntry_pattern :
    let workspace : Workspace := ⟨.directory [("p", .directory [("a.df", .file ByteArray.empty)]),
      ("pq", .directory [("b.df", .file ByteArray.empty)])], [], 0⟩
    (expandEntry workspace ⟨"/p"⟩ "*.df").value = [⟨"/p/a.df"⟩] ∧
      ∀ path ∈ (expandEntry workspace ⟨"/p"⟩ "*.df").value,
        (Path.mk "/p").components <+: path.components := by
  intro workspace
  have named : workspace.tree.AllNames IsEntryName := by
    simp only [workspace, FileTree.allNames_directory_iff, List.forall_mem_cons,
      List.not_mem_nil, false_imp_iff, implies_true, FileTree.allNames_file]
    decide +kernel
  exact ⟨by decide +kernel, root_prefix_of_mem_expandEntry named rfl (by decide) rfl⟩

/-- A root that reads as a pattern. Its entry stands for a file in another directory, while the file of
that name below the root is passed over. -/
theorem expandEntry_outside_root :
    let workspace : Workspace := ⟨.directory [("p[q]", .directory [("Dockerfile", .file ByteArray.empty)]),
      ("pq", .directory [("Dockerfile", .file ByteArray.empty)])], ["p[q]"], 0⟩
    workspace.holdsFile ((Path.mk "/p[q]").entry "Dockerfile") = true ∧
      (expandEntry workspace ⟨"/p[q]"⟩ "Dockerfile").value = [⟨"/pq/Dockerfile"⟩] ∧
      ¬ (Path.mk "/p[q]").components <+: (Path.mk "/pq/Dockerfile").components := by
  refine ⟨?_, ?_, ?_⟩ <;> decide +kernel

end Settings

end ManifestLint
