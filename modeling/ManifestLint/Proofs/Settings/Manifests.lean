import ManifestLint.Proofs.Glob.Expansion
import ManifestLint.Settings

/-!
# The manifests of a run

Where the manifests come from that a run is to check, and what holds of them as a list.

* `StandsFor`: what an entry of a configuration stands for, and `mem_expandEntry_iff`: it comes to that;
* `isAbsolute_of_mem_manifestPaths`: with none asked for, all of them are absolute;
* `pairwise_distinct`, `pairwise_manifestPaths`: no two of those name the same path.
-/

namespace ManifestLint

theorem Logged.value_mapM {α β : Type} (f : α → Logged β) (inputs : List α) :
    (inputs.mapM f).value = inputs.map fun a => (f a).value := by
  induction inputs with
  | nil => rfl
  | cons a rest ih =>
    rw [List.mapM_cons, Logged.value_bind, Logged.value_bind, ih]
    rfl

namespace Path

theorem distinctFrom_sublist (seen paths : List Path) : (distinctFrom seen paths).Sublist paths := by
  fun_induction distinctFrom seen paths with
  | case1 => exact .slnil
  | case2 seen first rest known ih => exact ih.cons first
  | case3 seen first rest new ih => exact ih.cons_cons first

theorem mem_of_mem_distinctFrom {seen paths : List Path} {path : Path}
    (h : path ∈ distinctFrom seen paths) : path ∈ paths :=
  (distinctFrom_sublist seen paths).mem h

/-- What is kept differs from all that was seen, and so from all that was kept before it. -/
theorem pairwise_distinctFrom (seen paths : List Path) :
    (distinctFrom seen paths).Pairwise (fun a b => ¬ a.SameComponents b) ∧
      ∀ path ∈ distinctFrom seen paths, ∀ other ∈ seen, ¬ other.SameComponents path := by
  fun_induction distinctFrom seen paths with
  | case1 => simp
  | case2 seen first rest known ih => exact ih
  | case3 seen first rest new ih =>
    obtain ⟨apart, unseen⟩ := ih
    refine ⟨.cons (fun later mem => unseen later mem first List.mem_cons_self) apart, ?_⟩
    refine List.forall_mem_cons.2 ⟨?_, fun path mem other seen =>
      unseen path mem other (List.mem_cons_of_mem _ seen)⟩
    simpa using new

theorem pairwise_distinct (paths : List Path) :
    (distinct paths).Pairwise fun a b => ¬ a.SameComponents b :=
  (pairwise_distinctFrom [] paths).1

end Path

namespace Settings

variable {workspace : Workspace} {root start path : Path} {entry : String}

theorem value_expandEntry_of_none (read : Glob.Pattern.ofString? (root.entry entry).text = none) :
    (expandEntry workspace root entry).value = [root.entry entry] := by
  unfold expandEntry
  dsimp only
  rw [read]
  rfl

theorem value_expandEntry_of_some {pattern : Glob.Pattern}
    (read : Glob.Pattern.ofString? (root.entry entry).text = some pattern) {files : List Path}
    (found : (pattern.expand workspace).filter workspace.holdsFile = files) :
    (expandEntry workspace root entry).value =
      if files = [] then [root.entry entry] else Path.sorted files := by
  unfold expandEntry
  dsimp only
  rw [read]
  dsimp only
  rw [found]
  cases files <;> rfl

/-- A file that an entry matches, read as a pattern that is seen from the root. -/
def Matched (workspace : Workspace) (root : Path) (entry : String) (path : Path) : Prop :=
  ∃ pattern, Glob.Pattern.ofString? (root.entry entry).text = some pattern ∧
    path ∈ pattern.expand workspace ∧ workspace.holdsFile path = true

/-- A path that an entry stands for. -/
inductive StandsFor (workspace : Workspace) (root : Path) (entry : String) : Path → Prop
  | matched {path : Path} (here : Matched workspace root entry path) :
      StandsFor workspace root entry path
  | literal (nowhere : ∀ path, ¬ Matched workspace root entry path) :
      StandsFor workspace root entry (root.entry entry)

theorem standsFor_of_nowhere (nowhere : ∀ path, ¬ Matched workspace root entry path) :
    StandsFor workspace root entry path ↔ path = root.entry entry := by
  constructor
  · rintro (here | -)
    · exact absurd here (nowhere path)
    · rfl
  · rintro rfl
    exact .literal nowhere

theorem standsFor_of_matched {file : Path} (somewhere : Matched workspace root entry file) :
    StandsFor workspace root entry path ↔ Matched workspace root entry path := by
  constructor
  · rintro (here | nowhere)
    · exact here
    · exact absurd somewhere (nowhere file)
  · exact .matched

theorem matched_iff {pattern : Glob.Pattern}
    (read : Glob.Pattern.ofString? (root.entry entry).text = some pattern) :
    Matched workspace root entry path ↔
      path ∈ (pattern.expand workspace).filter workspace.holdsFile := by
  simp [Matched, read]

theorem mem_expandEntry_iff :
    path ∈ (expandEntry workspace root entry).value ↔ StandsFor workspace root entry path := by
  cases read : Glob.Pattern.ofString? (root.entry entry).text with
  | none =>
    have nowhere (path : Path) : ¬ Matched workspace root entry path := by simp [Matched, read]
    rw [value_expandEntry_of_none read, List.mem_singleton, standsFor_of_nowhere nowhere]
  | some pattern =>
    rw [value_expandEntry_of_some read rfl]
    split
    · next missing =>
      have nowhere (path : Path) : ¬ Matched workspace root entry path := by
        rw [matched_iff read, missing]
        exact List.not_mem_nil
      rw [List.mem_singleton, standsFor_of_nowhere nowhere]
    · next found =>
      obtain ⟨file, mem⟩ := List.exists_mem_of_ne_nil _ found
      rw [standsFor_of_matched ((matched_iff read).2 mem), matched_iff read, Path.sorted,
        List.mem_mergeSort]

/-- A path that an entry stands for is the entry itself, seen from the root, or it is a file that the
entry matches as a pattern there. -/
theorem mem_expandEntry (h : path ∈ (expandEntry workspace root entry).value) :
    path = root.entry entry ∨ ∃ pattern, Glob.Pattern.ofString? (root.entry entry).text = some pattern ∧
      path ∈ pattern.expand workspace ∧ workspace.holdsFile path = true := by
  obtain here | - := mem_expandEntry_iff.1 h
  · exact .inr here
  · exact .inl rfl

/-- A pattern seen from an absolute root starts at the top. -/
theorem absolute_of_ofString? {pattern : Glob.Pattern} (h : path.isAbsolute = true)
    (read : Glob.Pattern.ofString? path.text = some pattern) : pattern.absolute = true := by
  unfold Glob.Pattern.ofString? at read
  obtain ⟨segments, -, made⟩ := Option.bind_eq_some_iff.1 read
  cases made
  exact h

theorem isAbsolute_of_mem_expandEntry (absolute : root.isAbsolute = true)
    (h : path ∈ (expandEntry workspace root entry).value) : path.isAbsolute = true := by
  have whole := Path.isAbsolute_entry absolute entry
  obtain rfl | ⟨pattern, read, expanded, -⟩ := mem_expandEntry h
  · exact whole
  · rw [Glob.Pattern.expand, absolute_of_ofString? whole read, if_pos rfl] at expanded
    exact Glob.isAbsolute_of_visits rfl (Glob.visits_of_mem_expandSegments expanded)

theorem value_expandEntries (entries : List String) :
    (expandEntries workspace root entries).value =
      Path.distinct (entries.flatMap fun entry => (expandEntry workspace root entry).value) := by
  rw [expandEntries, Logged.value_bind, Logged.value_mapM, List.flatMap_def]
  rfl

/-- With no manifest asked for, the manifests come from the entries, if there are any, and else there is
one in the start. -/
theorem manifestPaths_cases (configured : Option (List String)) :
    (∃ entries, configured = some entries ∧
        manifestPaths workspace root start [] configured = expandEntries workspace root entries) ∨
      (configured.getD [] = [] ∧
        (manifestPaths workspace root start [] configured).value =
          [start.entry Manifest.defaultName]) := by
  unfold manifestPaths
  match configured with
  | none => exact .inr ⟨rfl, rfl⟩
  | some [] => exact .inr ⟨rfl, rfl⟩
  | some (entry :: rest) => exact .inl ⟨_, rfl, rfl⟩

theorem isAbsolute_of_mem_manifestPaths {configured : Option (List String)}
    (rooted : root.isAbsolute = true) (started : start.isAbsolute = true)
    (h : path ∈ (manifestPaths workspace root start [] configured).value) :
    path.isAbsolute = true := by
  obtain ⟨entries, -, expanded⟩ | ⟨-, single⟩ := manifestPaths_cases configured
  · rw [expanded, value_expandEntries] at h
    obtain ⟨entry, -, mem⟩ := List.mem_flatMap.1 (Path.mem_of_mem_distinctFrom h)
    exact isAbsolute_of_mem_expandEntry rooted mem
  · rw [single, List.mem_singleton] at h
    exact h ▸ Path.isAbsolute_entry started Manifest.defaultName

theorem pairwise_manifestPaths (configured : Option (List String)) :
    (manifestPaths workspace root start [] configured).value.Pairwise
      fun a b => ¬ a.SameComponents b := by
  obtain ⟨entries, -, expanded⟩ | ⟨-, single⟩ := manifestPaths_cases configured
  · rw [expanded, value_expandEntries]
    exact Path.pairwise_distinct _
  · rw [single]
    exact List.pairwise_singleton _ _

/-! ## Where a run starts -/

/-- The directory at which a run starts its search for the root. -/
def startOf (directory : Path) (options : CommandLine.CheckOptions) : Path :=
  (options.projectRoot.map (directory.join ⟨·⟩)).getD directory

theorem isAbsolute_startOf {directory : Path} (h : directory.isAbsolute = true)
    (options : CommandLine.CheckOptions) : (startOf directory options).isAbsolute = true := by
  unfold startOf
  cases options.projectRoot with
  | none => exact h
  | some root => exact Path.isAbsolute_join h

theorem projectRoot_mem_ancestors (start : Path) : workspace.projectRoot start ∈ start.ancestors := by
  have self : start ∈ start.ancestors := by
    rw [Path.ancestors]
    exact List.mem_cons_self
  unfold Workspace.projectRoot
  cases found : start.ancestors.find? workspace.marksRoot with
  | none => exact self
  | some root => exact List.mem_of_find?_eq_some found

theorem isAbsolute_projectRoot (h : start.isAbsolute = true) :
    (workspace.projectRoot start).isAbsolute = true :=
  Path.isAbsolute_of_mem_ancestors h (projectRoot_mem_ancestors start)

theorem value_resolveIn (directory : Path) (options : CommandLine.CheckOptions) :
    (resolveIn workspace directory options).value =
      let start := startOf directory options
      let root := workspace.projectRoot start
      let config := (workspace.loadConfig root).value.getD .unset
      { projectRoot := root
        manifests := (manifestPaths workspace root start options.paths config.manifests).value
        output := (options.output <|> config.output).getD defaultOutput
        color := !options.noColor && config.color.getD true } := rfl

end Settings

end ManifestLint
