import ManifestLint.Proofs.Glob.Outline
import ManifestLint.Proofs.Paths.Order
import ManifestLint.Proofs.Settings.Manifests
import ManifestLint.Proofs.Settings.Precedence

/-!
# What the entries of a configuration come to

Each entry stands for the files that it matches, or for itself if it matches none. Entries may overlap,
and a path that several of them stand for is checked once, where it comes up first. Main statement:
`manifests_of_entries`.

* `Path.distinctFrom_append`: what is kept of two lists of paths, one after the other;
* `among_expansions`: nothing that an entry stands for is dropped, and nothing else is added;
* `pairwise_comesBefore`: the order, by induction on the entries that are still to come;
* `distinct_expansions_of_covered`: an entry that brings nothing new.
-/

namespace ManifestLint

namespace Path

/-- A path is among some paths, be it in another spelling. -/
def Among (path : Path) (paths : List Path) : Prop :=
  ∃ spelled ∈ paths, spelled.SameComponents path

variable {seen other paths front back : List Path} {path : Path}

theorem among_append : path.Among (front ++ back) ↔ path.Among front ∨ path.Among back := by
  simp only [Among, List.mem_append, or_and_right, exists_or]

theorem among_cons {first : Path} :
    path.Among (first :: paths) ↔ first.SameComponents path ∨ path.Among paths := by
  simp [Among]

theorem Among.of_same {spelled : Path} (h : spelled.Among paths) (same : spelled.SameComponents path) :
    path.Among paths := by
  obtain ⟨first, mem, here⟩ := h
  exact ⟨first, mem, here.trans same⟩

theorem any_sameComponents_iff :
    (seen.any fun known => known.SameComponents path) = true ↔ path.Among seen := by
  simp [Among]

/-- What is kept hangs on which paths were seen, and not on their order or their spelling. -/
theorem distinctFrom_congr (same : ∀ path : Path, path.Among seen ↔ path.Among other) :
    distinctFrom seen paths = distinctFrom other paths := by
  induction paths generalizing seen other with
  | nil => rfl
  | cons first rest ih =>
    have known : (seen.any fun known => known.SameComponents first) =
        other.any fun known => known.SameComponents first := by
      rw [Bool.eq_iff_iff, any_sameComponents_iff, any_sameComponents_iff]
      exact same first
    rw [distinctFrom, distinctFrom, known, ih same]
    split
    · rfl
    · refine congrArg (first :: ·) (ih fun path => ?_)
      rw [among_cons, among_cons, same]

theorem distinctFrom_append (seen front back : List Path) :
    distinctFrom seen (front ++ back) =
      distinctFrom seen front ++ distinctFrom (front ++ seen) back := by
  fun_induction distinctFrom seen front with
  | case1 seen => rfl
  | case2 seen first rest known ih =>
    rw [List.cons_append, distinctFrom, if_pos known, ih]
    refine congrArg (distinctFrom seen rest ++ ·) (distinctFrom_congr fun path => ?_)
    rw [List.cons_append, among_cons, among_append]
    have again : first.SameComponents path → path.Among seen :=
      (any_sameComponents_iff.1 known).of_same
    grind
  | case3 seen first rest new ih =>
    rw [List.cons_append, distinctFrom, if_neg new, ih, List.cons_append]
    refine congrArg (fun kept => first :: (distinctFrom (first :: seen) rest ++ kept))
      (distinctFrom_congr fun path => ?_)
    simp only [List.cons_append, among_cons, among_append]
    grind

theorem among_distinctFrom :
    path.Among (distinctFrom seen paths) ∨ path.Among seen ↔ path.Among paths ∨ path.Among seen := by
  fun_induction distinctFrom seen paths with
  | case1 => rfl
  | case2 seen first rest known ih =>
    have again : first.SameComponents path → path.Among seen :=
      (any_sameComponents_iff.1 known).of_same
    rw [ih, among_cons]
    grind
  | case3 seen first rest new ih =>
    simp only [among_cons] at ih ⊢
    grind

theorem among_distinct : path.Among (distinct paths) ↔ path.Among paths := by
  have nothing : ¬ path.Among [] := by simp [Among]
  have both : path.Among (distinctFrom [] paths) ∨ path.Among [] ↔ path.Among paths ∨ path.Among [] :=
    among_distinctFrom
  rwa [or_iff_left nothing, or_iff_left nothing] at both

/-- Paths that were all seen bring nothing. -/
theorem distinctFrom_eq_nil (known : ∀ path ∈ paths, path.Among seen) : distinctFrom seen paths = [] := by
  induction paths with
  | nil => rfl
  | cons first rest ih =>
    obtain ⟨here, later⟩ := List.forall_mem_cons.1 known
    rw [distinctFrom, if_pos (any_sameComponents_iff.2 here), ih later]

end Path

namespace Settings

variable {workspace : Workspace} {root : Path} {entry : String} {entries front back : List String}
  {path : Path}

/-- A path that an entry stands for, be it in another spelling. -/
def Yields (workspace : Workspace) (root : Path) (entry : String) (path : Path) : Prop :=
  ∃ spelled, StandsFor workspace root entry spelled ∧ spelled.SameComponents path

/-- The paths of one entry are in order. -/
theorem pairwise_expandEntry (workspace : Workspace) (root : Path) (entry : String) :
    (expandEntry workspace root entry).value.Pairwise fun a b => a.atMost b = true := by
  cases read : Glob.Pattern.ofString? (root.entry entry).text with
  | none =>
    rw [value_expandEntry_of_none read]
    exact List.pairwise_singleton _ _
  | some pattern =>
    rw [value_expandEntry_of_some read rfl]
    split
    · exact List.pairwise_singleton _ _
    · exact Path.pairwise_sorted _

/-! ## What is in the list -/

/-- The paths that some entries stand for, one entry after the other. -/
def expansions (workspace : Workspace) (root : Path) (entries : List String) : List Path :=
  entries.flatMap fun entry => (expandEntry workspace root entry).value

theorem expansions_cons (entry : String) (rest : List String) :
    expansions workspace root (entry :: rest) =
      (expandEntry workspace root entry).value ++ expansions workspace root rest := rfl

theorem expansions_append (front back : List String) :
    expansions workspace root (front ++ back) =
      expansions workspace root front ++ expansions workspace root back :=
  List.flatMap_append

theorem among_expandEntry :
    path.Among (expandEntry workspace root entry).value ↔ Yields workspace root entry path := by
  simp only [Path.Among, Yields, mem_expandEntry_iff]

theorem among_expansions :
    path.Among (expansions workspace root entries) ↔
      ∃ entry ∈ entries, Yields workspace root entry path := by
  simp only [expansions, Path.Among, Yields, List.mem_flatMap, mem_expandEntry_iff]
  grind

/-- An entry that stands for nothing new behind some others brings nothing. -/
theorem distinct_expansions_of_covered {added : String}
    (covered : ∀ path, Yields workspace root added path →
      ∃ entry ∈ front, Yields workspace root entry path) :
    Path.distinct (expansions workspace root (front ++ added :: back)) =
      Path.distinct (expansions workspace root (front ++ back)) := by
  have known : ∀ path : Path, path.Among (expandEntry workspace root added).value →
      path.Among (expansions workspace root front) := by
    intro path mem
    exact among_expansions.2 (covered path (among_expandEntry.1 mem))
  have nothing : Path.distinctFrom (expansions workspace root front)
      (expandEntry workspace root added).value = [] :=
    Path.distinctFrom_eq_nil fun path mem => known path ⟨path, mem, rfl⟩
  have seen (path : Path) :
      path.Among ((expandEntry workspace root added).value ++ expansions workspace root front) ↔
        path.Among (expansions workspace root front) := by
    rw [Path.among_append, or_iff_right_of_imp (known path)]
  rw [Path.distinct, Path.distinct, expansions_append, expansions_append, expansions_cons,
    Path.distinctFrom_append, Path.distinctFrom_append, Path.distinctFrom_append, List.append_nil,
    nothing, List.nil_append, Path.distinctFrom_congr seen]

/-! ## The order of the list -/

/-- The first of some entries that yields a path, by its place. -/
structure FirstYields (workspace : Workspace) (root : Path) (entries : List String) (place : Nat)
    (path : Path) : Prop where
  here : ∃ entry, entries[place]? = some entry ∧ Yields workspace root entry path
  first : ∀ earlier < place, ∀ entry, entries[earlier]? = some entry →
    ¬ Yields workspace root entry path

/-- An earlier entry yields the first path, or the same entry yields both and they are in order. -/
def ComesBefore (workspace : Workspace) (root : Path) (entries : List String) (a b : Path) : Prop :=
  ∃ place later, FirstYields workspace root entries place a ∧
    FirstYields workspace root entries later b ∧
      (place < later ∨
        place = later ∧ Path.compareComponents a.components b.components = .lt)

theorem firstYields_of_append (yields : Yields workspace root entry path)
    (new : ¬ path.Among (expansions workspace root front)) :
    FirstYields workspace root (front ++ entry :: back) front.length path where
  here := ⟨entry, by simp, yields⟩
  first earlier before other listed yields := by
    rw [List.getElem?_append_left before] at listed
    exact new (among_expansions.2 ⟨other, List.mem_of_getElem? listed, yields⟩)

/-- What an entry adds to those before it, in order and yielded by none of them. -/
theorem pairwise_comesBefore_entry (workspace : Workspace) (root : Path) (front : List String)
    (entry : String) (back : List String) :
    let added :=
      Path.distinctFrom (expansions workspace root front) (expandEntry workspace root entry).value
    added.Pairwise (ComesBefore workspace root (front ++ entry :: back)) ∧
      ∀ path ∈ added, FirstYields workspace root (front ++ entry :: back) front.length path := by
  intro added
  obtain ⟨apart, new⟩ := Path.pairwise_distinctFrom (expansions workspace root front)
    (expandEntry workspace root entry).value
  have first : ∀ path ∈ added,
      FirstYields workspace root (front ++ entry :: back) front.length path := by
    intro path mem
    refine firstYields_of_append (among_expandEntry.1 ⟨path, Path.mem_of_mem_distinctFrom mem, rfl⟩) ?_
    rintro ⟨known, seen, same⟩
    exact new path mem known seen same
  have sorted : added.Pairwise fun a b => a.atMost b = true :=
    (pairwise_expandEntry workspace root entry).sublist (Path.distinctFrom_sublist _ _)
  refine ⟨(sorted.and apart).imp_of_mem fun {a b} memA memB both => ?_, first⟩
  exact ⟨_, _, first a memA, first b memB,
    .inr ⟨rfl, Path.compareComponents_of_atMost both.1 both.2⟩⟩

theorem distinctFrom_expansions_cons (front : List String) (entry : String) (rest : List String) :
    Path.distinctFrom (expansions workspace root front) (expansions workspace root (entry :: rest)) =
      Path.distinctFrom (expansions workspace root front) (expandEntry workspace root entry).value ++
        Path.distinctFrom (expansions workspace root (front ++ [entry]))
          (expansions workspace root rest) := by
  rw [expansions_cons, Path.distinctFrom_append]
  refine congrArg (Path.distinctFrom _ _ ++ ·) (Path.distinctFrom_congr fun path => ?_)
  rw [expansions_append, expansions_cons, Path.among_append, Path.among_append, Path.among_append]
  simp [expansions, Path.Among, or_comm]

/-- What the entries that are still to come add is in order, and no earlier entry yields it. -/
theorem pairwise_comesBefore (workspace : Workspace) (root : Path) (front back : List String) :
    let added := Path.distinctFrom (expansions workspace root front) (expansions workspace root back)
    added.Pairwise (ComesBefore workspace root (front ++ back)) ∧
      ∀ path ∈ added, ∃ place, front.length ≤ place ∧
        FirstYields workspace root (front ++ back) place path := by
  induction back generalizing front with
  | nil => exact ⟨.nil, fun path mem => by cases mem⟩
  | cons entry rest ih =>
    obtain ⟨ordered, first⟩ := pairwise_comesBefore_entry workspace root front entry rest
    obtain ⟨laterOrdered, laterFirst⟩ := ih (front ++ [entry])
    rw [List.append_assoc, List.singleton_append] at laterOrdered laterFirst
    have behind {place : Nat} (h : (front ++ [entry]).length ≤ place) : front.length < place := by
      rwa [List.length_append, List.length_singleton] at h
    rw [distinctFrom_expansions_cons]
    constructor
    · refine List.pairwise_append.2 ⟨ordered, laterOrdered, fun a memA b memB => ?_⟩
      obtain ⟨place, far, later⟩ := laterFirst b memB
      exact ⟨_, place, first a memA, later, .inl (behind far)⟩
    · intro path mem
      obtain mem | mem := List.mem_append.1 mem
      · exact ⟨_, Nat.le_refl _, first path mem⟩
      · obtain ⟨place, far, later⟩ := laterFirst path mem
        exact ⟨place, Nat.le_of_lt (behind far), later⟩

/-! ## The manifests of a run -/

theorem expandEntry_outlined (workspace : Workspace) (root : Path) (entry : String) :
    expandEntry workspace.outlined root entry = expandEntry workspace root entry := by
  have files : workspace.outlined.holdsFile = workspace.holdsFile :=
    funext workspace.holdsFile_outlined
  unfold expandEntry
  dsimp only
  cases Glob.Pattern.ofString? (root.entry entry).text with
  | none => rfl
  | some pattern =>
    dsimp only
    rw [files, Glob.Pattern.expand_outlined]

theorem projectRoot_outlined (workspace : Workspace) (start : Path) :
    workspace.outlined.projectRoot start = workspace.projectRoot start := by
  have marks : workspace.outlined.marksRoot = workspace.marksRoot := by
    funext directory
    simp only [Workspace.marksRoot, Workspace.holds_outlined]
  rw [Workspace.projectRoot, Workspace.projectRoot, marks]

theorem expansions_congr {other : Workspace} (same : other.outlined = workspace.outlined) :
    expansions other root entries = expansions workspace root entries := by
  have expand : expandEntry other root = expandEntry workspace root := by
    funext entry
    rw [← expandEntry_outlined, same, expandEntry_outlined]
  rw [expansions, expansions, expand]

theorem projectRoot_congr {other : Workspace} (same : other.outlined = workspace.outlined)
    (start : Path) : other.projectRoot start = workspace.projectRoot start := by
  rw [← projectRoot_outlined, same, projectRoot_outlined]

/-- The manifests of a run that is asked for none, where the configuration lists some. -/
theorem manifests_resolveIn {directory : Path} {options : CommandLine.CheckOptions} {config : Config}
    (unasked : options.paths = [])
    (configured : workspace.Configured (workspace.projectRoot (startOf directory options)) config)
    (listed : config.manifests = some entries) (full : entries ≠ []) :
    (resolveIn workspace directory options).value.manifests =
      Path.distinct
        (expansions workspace (workspace.projectRoot (startOf directory options)) entries) := by
  rw [value_resolveIn]
  dsimp only
  rw [unasked, Workspace.getD_loadConfig_of_configured configured, listed]
  obtain ⟨entry, rest, rfl⟩ := List.exists_cons_of_ne_nil full
  exact value_expandEntries (entry :: rest)

/-- **The manifests that a configuration lists.** No two of them name the same path. They are what the
entries stand for, with nothing dropped and nothing added. They come by the first entry that yields them,
and by the order of paths within one entry. So an entry that yields only what entries before it yield
can be put in without a change to the list. -/
theorem manifests_of_entries {workspace : Workspace} {directory : Path}
    {options : CommandLine.CheckOptions} {config : Config} {entries : List String}
    (unasked : options.paths = [])
    (configured : workspace.Configured (workspace.projectRoot (startOf directory options)) config)
    (listed : config.manifests = some entries) (full : entries ≠ []) :
    let root := workspace.projectRoot (startOf directory options)
    let manifests := (resolveIn workspace directory options).value.manifests
    manifests.Pairwise (fun a b => ¬ a.SameComponents b) ∧
      ((∀ path ∈ manifests, ∃ entry ∈ entries, StandsFor workspace root entry path) ∧
        ∀ path : Path, path.Among manifests ↔ ∃ entry ∈ entries, Yields workspace root entry path) ∧
      manifests.Pairwise (ComesBefore workspace root entries) ∧
      ∀ (front back : List String) (added : String), entries = front ++ back →
        (∀ path, Yields workspace root added path →
          ∃ entry ∈ front, Yields workspace root entry path) →
        ∀ (other : Workspace) (longer : Config), other.outlined = workspace.outlined →
          other.Configured root longer → longer.manifests = some (front ++ added :: back) →
          (resolveIn other directory options).value.manifests = manifests := by
  intro root manifests
  have whole : manifests = Path.distinct (expansions workspace root entries) :=
    manifests_resolveIn unasked configured listed full
  refine ⟨?_, ⟨fun path mem => ?_, fun path => ?_⟩, ?_, ?_⟩
  · rw [whole]
    exact Path.pairwise_distinct _
  · rw [whole] at mem
    obtain ⟨entry, inside, mem⟩ := List.mem_flatMap.1 (Path.mem_of_mem_distinctFrom mem)
    exact ⟨entry, inside, mem_expandEntry_iff.1 mem⟩
  · rw [whole, Path.among_distinct, among_expansions]
  · rw [whole]
    exact (pairwise_comesBefore workspace root [] entries).1
  · intro front back added split covered other longer same otherConfigured otherListed
    have root_eq : other.projectRoot (startOf directory options) = root := projectRoot_congr same _
    rw [manifests_resolveIn unasked (root_eq ▸ otherConfigured) otherListed (by simp), root_eq,
      expansions_congr same, distinct_expansions_of_covered covered, whole, split]

/-- Entries that are no pattern, that overlap, and that match nothing but a directory, and one more that
writes a file in another way. -/
theorem manifests_of_entries_overlapping :
    let tree (text : String) : FileTree := .directory [("p", .directory [
      ("a", .directory [("file", .file ByteArray.empty)]),
      ("b", .directory [("file", .file ByteArray.empty), ("sub", .directory [])]),
      ("dockscan.toml", .file text.toUTF8)])]
    let workspace : Workspace := ⟨tree "manifests = ['[', 'b/*', '*/file', 'a']", ["p"], 0⟩
    let other : Workspace := ⟨tree "manifests = ['[', 'b/*', '*/file', './b/file', 'a']", ["p"], 0⟩
    let options : CommandLine.CheckOptions := ⟨[], none, none, false⟩
    let manifests := (resolveIn workspace ⟨"/p"⟩ options).value.manifests
    manifests = [⟨"/p/["⟩, ⟨"/p/b/file"⟩, ⟨"/p/a/file"⟩, ⟨"/p/a"⟩] ∧
      manifests.Pairwise (ComesBefore workspace ⟨"/p"⟩ ["[", "b/*", "*/file", "a"]) ∧
      (resolveIn other ⟨"/p"⟩ options).value.manifests = manifests := by
  intro tree workspace other options manifests
  have root : workspace.projectRoot (startOf ⟨"/p"⟩ options) = ⟨"/p"⟩ := by decide +kernel
  have configured : workspace.Configured (workspace.projectRoot (startOf ⟨"/p"⟩ options))
      ⟨some ["[", "b/*", "*/file", "a"], none, none⟩ := by
    rw [root]
    exact .valid ⟨by decide +kernel, [], _, rfl, by simp⟩ ⟨_, rfl, by decide +kernel⟩
  have longer : other.Configured ⟨"/p"⟩
      ⟨some ["[", "b/*", "*/file", "./b/file", "a"], none, none⟩ :=
    .valid ⟨by decide +kernel, [], _, rfl, by simp⟩ ⟨_, rfl, by decide +kernel⟩
  have wild : (expandEntry workspace ⟨"/p"⟩ "*/file").value = [⟨"/p/a/file"⟩, ⟨"/p/b/file"⟩] := by
    let pattern : Glob.Pattern := ⟨true, [.name ['p'], .wild [.anyText], .name "file".toList], false⟩
    have read : Glob.Pattern.ofString? ((Path.mk "/p").entry "*/file").text = some pattern := by
      decide +kernel
    have found : (pattern.expand workspace).filter workspace.holdsFile =
        [⟨"/p/a/file"⟩, ⟨"/p/b/file"⟩] := by decide +kernel
    rw [value_expandEntry_of_some read found, if_neg (List.cons_ne_nil _ _)]
    exact List.mergeSort_of_pairwise (by decide +kernel)
  have listed : manifests = Path.distinct (expansions workspace ⟨"/p"⟩ ["[", "b/*", "*/file", "a"]) :=
    root ▸ manifests_resolveIn rfl configured rfl (by decide)
  have whole : manifests = [⟨"/p/["⟩, ⟨"/p/b/file"⟩, ⟨"/p/a/file"⟩, ⟨"/p/a"⟩] := by
    rw [listed, expansions_cons, expansions_cons, expansions_cons, wild]
    decide +kernel
  obtain ⟨-, -, ordered, absorbed⟩ := manifests_of_entries rfl configured rfl (by decide)
  rw [root] at ordered absorbed
  refine ⟨whole, ordered, ?_⟩
  refine absorbed ["[", "b/*", "*/file"] ["a"] "./b/file" rfl ?_ other _ rfl longer rfl
  rintro path ⟨spelled, stands, same⟩
  have found : (expandEntry workspace ⟨"/p"⟩ "./b/file").value = [⟨"/p/./b/file"⟩] := by
    decide +kernel
  have mem := mem_expandEntry_iff.2 stands
  rw [found, List.mem_singleton] at mem
  have earlier : StandsFor workspace ⟨"/p"⟩ "b/*" ⟨"/p/b/file"⟩ :=
    mem_expandEntry_iff.1 (by decide +kernel)
  refine ⟨"b/*", by decide, ⟨"/p/b/file"⟩, earlier, ?_⟩
  have twoWays : Path.SameComponents ⟨"/p/b/file"⟩ ⟨"/p/./b/file"⟩ := by decide +kernel
  exact twoWays.trans (mem ▸ same)

end Settings

end ManifestLint
