import Mathlib.Data.List.Find
import ManifestLint.Proofs.Glob.Names
import ManifestLint.Proofs.Glob.Relocation
import ManifestLint.Proofs.Settings.NearestRoot

/-!
# Settings in another place

A project is the directory that a workspace stands in: marked as a root, and configured by entries that
stay below it. What its configuration says and the manifests that it stands for are read off this
directory alone. The manifests come out in the same order and go on alike from wherever the project is.

* `value_loadConfig_eq`: the configuration;
* `relocated_expandEntry`, `relocated_manifestPaths`: the manifests.
-/

namespace ManifestLint

/-! ## Lists of paths -/

/-- Lists that are related item by item are so when they are sorted, if the orders agree. -/
theorem forall₂_mergeSort {α β : Type} {R : α → β → Prop} {le : α → α → Bool} {le' : β → β → Bool}
    (alike : ∀ {a b c d}, R a c → R b d → le a b = le' c d) {xs : List α} {ys : List β}
    (related : List.Forall₂ R xs ys) : List.Forall₂ R (xs.mergeSort le) (ys.mergeSort le') := by
  obtain ⟨long, zipped⟩ := List.forall₂_iff_zip.1 related
  -- Both are the pairs of related items, sorted once.
  have first : ((xs.zip ys).mergeSort fun p q => le p.1 q.1).map Prod.fst = xs.mergeSort le := by
    rw [List.map_mergeSort (s := le) fun _ _ _ _ => rfl, List.map_fst_zip (Nat.le_of_eq long)]
  have second : ((xs.zip ys).mergeSort fun p q => le p.1 q.1).map Prod.snd = ys.mergeSort le' := by
    rw [List.map_mergeSort (s := le') fun p mem q mem' => alike (zipped mem) (zipped mem'),
      List.map_snd_zip (Nat.le_of_eq long.symm)]
  rw [← first, ← second, List.forall₂_map_left_iff, List.forall₂_map_right_iff, List.forall₂_same]
  exact fun pair mem => zipped (List.mem_mergeSort.1 mem)

namespace Path

variable {names : List (List Char)} (lead : LeadDown names)
include lead

theorem any_sameComponents_eq {seen ownSeen : List Path} (known : List.Forall₂ (Relocated names) seen ownSeen)
    {path own : Path} (same : Relocated names path own) :
    (seen.any fun other => other.SameComponents path) =
      ownSeen.any fun other => other.SameComponents own := by
  induction known with
  | nil => rfl
  | cons first _ ih =>
    rw [List.any_cons, List.any_cons, ih, decide_eq_decide.2 (first.sameComponents_iff lead same)]

theorem relocated_distinctFrom {seen ownSeen paths own : List Path}
    (known : List.Forall₂ (Relocated names) seen ownSeen)
    (related : List.Forall₂ (Relocated names) paths own) :
    List.Forall₂ (Relocated names) (distinctFrom seen paths) (distinctFrom ownSeen own) := by
  induction related generalizing seen ownSeen with
  | nil => exact .nil
  | cons same _ ih =>
    rw [distinctFrom, distinctFrom, any_sameComponents_eq lead known same]
    split
    · exact ih known
    · exact .cons same (ih (.cons same known))

theorem relocated_sorted {paths own : List Path} (related : List.Forall₂ (Relocated names) paths own) :
    List.Forall₂ (Relocated names) (sorted paths) (sorted own) :=
  forall₂_mergeSort (fun first second => first.atMost_eq lead second) related

end Path

/-! ## Entries -/

namespace Glob

/-- An entry that stays below the root: a relative path or pattern without `..`, and without wildcards
behind a dot that match `..`. -/
structure StaysBelow (entry : String) : Prop where
  relative : (Path.mk entry).isAbsolute = false
  plain : .parent ∉ (Path.mk entry).components
  wild : ∀ pattern ∈ Pattern.ofString? entry, ∀ segment ∈ pattern.segments, ¬ segment.LeadsUp

variable {entry : String}

theorem StaysBelow.inward (stays : StaysBelow entry) :
    Path.Inward (Text.segments '/' entry.toList) := by
  intro segment mem
  refine ⟨Path.slashless_segments _ segment mem, fun up => stays.plain ?_⟩
  have counted : .parent ∈ (Text.segments '/' entry.toList).filterMap Path.Component.ofSegment? :=
    List.mem_filterMap.2 ⟨segment, mem, by rw [up]; rfl⟩
  obtain same | same := Path.components_of_relative stays.relative <;> rw [same]
  · exact counted
  · exact List.mem_cons_of_mem _ counted

theorem StaysBelow.goDown (stays : StaysBelow entry) {pattern : Pattern}
    (read : Pattern.ofString? entry = some pattern) : GoDown pattern.segments where
  slashless _ mem := slashless_of_mem_pattern read mem
  down := stays.wild pattern read

/-- An entry of few parts, of which none stands for any number of directories. -/
def FewParts (root : Path) (entry : String) : Prop :=
  entry.utf8ByteSize ≤ FileTree.nameLimit ∧ ∀ pattern ∈ Pattern.ofString? (root.entry entry).text,
    (∀ segment ∈ pattern.segments, segment.Shallow) ∧
      1 + pattern.segments.length * (FileTree.nameLimit + 1) < Workspace.pathLimit

instance (root : Path) (entry : String) : Decidable (FewParts root entry) :=
  inferInstanceAs (Decidable (_ ∧ _))

theorem directoriesOnly_of_ofString? {text : String} {pattern : Pattern}
    (read : Pattern.ofString? text = some pattern) :
    pattern.directoriesOnly = (text.toList.getLast? == some '/') := by
  unfold Pattern.ofString? at read
  obtain ⟨segments, -, made⟩ := Option.bind_eq_some_iff.1 read
  cases made
  rfl

/-- Names that are asked for as directories stand for a directory. -/
theorem holdsDirectory_of_mem_expandSegments {workspace : Workspace} {names : List (List Char)}
    {path found : Path} (mem : found ∈ expandSegments workspace true (names.map .name) path) :
    workspace.holdsDirectory found = true := by
  induction names generalizing path with
  | nil =>
    rw [List.map_nil, expandSegments, Bool.true_and] at mem
    split at mem
    · cases mem
    · next inside =>
      rw [List.mem_singleton.1 mem]
      simpa using inside
  | cons name rest ih =>
    rw [List.map_cons, expandSegments] at mem
    generalize (if String.ofList name = "." ∨ String.ofList name = ".." then
      workspace.holdsDirectory path else workspace.holds (below path (String.ofList name))) =
        there at mem
    cases there with
    | false => cases mem
    | true => exact ih mem

end Glob

namespace Settings

variable {workspace : Workspace} {directory : FileTree}

/-- The empty entry is the path of the root as a directory, and stands for no file. -/
theorem value_expandEntry_empty {names : List (List Char)} (lead : Path.LeadDown names)
    (plain : ∀ name ∈ names, Glob.Plain name) :
    (expandEntry workspace (Path.absolute names) "").value = [(Path.absolute names).entry ""] := by
  have relative : (Path.mk "").isAbsolute = false := rfl
  have whole : (Path.absolute names).entry "" = Path.absolute (names ++ [[]]) := lead.join relative
  have plainAll : ∀ name ∈ names ++ [[]], Glob.Plain name := by
    simpa [or_imp, forall_and, Glob.Plain] using plain
  obtain ⟨segments, -, -, directoriesOnly, read⟩ := Glob.ofString?_absolute
    (lead.slashless.append (Path.slashless_segments [])) plainAll
  obtain rfl : directoriesOnly = true := by
    refine (Glob.directoriesOnly_of_ofString? read).trans ?_
    rw [Path.toList_absolute_append names (by simp [Text.segments])]
    simp [Text.joined, Text.segments]
  have fileless : ((⟨true, segments.map .name, true⟩ : Glob.Pattern).expand workspace).filter
      workspace.holdsFile = [] := by
    refine List.filter_eq_nil_iff.2 fun found mem file => ?_
    have inside := Glob.holdsDirectory_of_mem_expandSegments mem
    unfold Workspace.holdsFile at file
    unfold Workspace.holdsDirectory at inside
    split at inside <;> simp_all
  rw [value_expandEntry_of_some (by rw [whole]; exact read) fileless, if_pos rfl]

/-- The files among paths that are related are related. -/
theorem relocated_files (h : workspace.StandsIn directory) {paths own : List Path}
    (related : List.Forall₂ (Path.Relocated workspace.way) paths own)
    (short : ∀ path ∈ paths, path.text.utf8ByteSize < Workspace.pathLimit) :
    List.Forall₂ (Path.Relocated workspace.way) (paths.filter workspace.holdsFile)
      (own.filter (Workspace.alone directory).holdsFile) := by
  have both := (List.forall₂_and_left paths own).2 ⟨short, related⟩
  refine (List.rel_filter ?_ both).imp fun _ _ pair => pair.2
  rintro path own ⟨short, same⟩
  exact Bool.eq_iff_iff.1 (h.holdsFile_eq same short)

/-- An entry seen from the working directory stands for the paths that it stands for in that directory
alone. -/
theorem relocated_expandEntry (h : workspace.StandsIn directory)
    (named : directory.AllNames IsEntryName) (plain : ∀ name ∈ workspace.way, Glob.Plain name)
    {entry : String} (stays : Glob.StaysBelow entry)
    (short : ∀ pattern visited,
      Glob.Pattern.ofString? ((Path.absolute workspace.way).entry entry).text = some pattern →
      Glob.Visits workspace pattern.segments ⟨"/"⟩ visited →
        visited.text.utf8ByteSize < Workspace.pathLimit) :
    List.Forall₂ (Path.Relocated workspace.way)
      (expandEntry workspace (Path.absolute workspace.way) entry).value
      (expandEntry (.alone directory) (Path.absolute []) entry).value := by
  have whole : Path.Relocated workspace.way ((Path.absolute workspace.way).entry entry)
      ((Path.absolute []).entry entry) :=
    (Path.relocated_absolute workspace.way).join h.lead stays.relative stays.inward
  by_cases empty : entry = ""
  · subst empty
    rw [value_expandEntry_empty h.lead plain, value_expandEntry_empty Path.leadDown_nil (by simp)]
    exact .cons whole .nil
  · have there : Glob.Pattern.ofString? ((Path.absolute workspace.way).entry entry).text =
        (Glob.Pattern.ofString? entry).map fun pattern =>
          ⟨true, workspace.way.map .name ++ pattern.segments, pattern.directoriesOnly⟩ := by
      rw [Path.entry, h.lead.join stays.relative,
        Glob.ofString?_absolute_append h.lead.slashless plain stays.relative empty]
    have here : Glob.Pattern.ofString? ((Path.absolute []).entry entry).text =
        (Glob.Pattern.ofString? entry).map fun pattern =>
          ⟨true, pattern.segments, pattern.directoriesOnly⟩ := by
      rw [Path.entry, Path.leadDown_nil.join stays.relative, Glob.ofString?_absolute_append
        Path.leadDown_nil.slashless (by simp) stays.relative empty]
      rfl
    cases read : Glob.Pattern.ofString? entry with
    | none =>
      rw [read] at there here
      rw [value_expandEntry_of_none there, value_expandEntry_of_none here]
      exact .cons whole .nil
    | some pattern =>
      rw [read] at there here
      have shorts (visited : Path) (visits : Glob.Visits workspace
          (workspace.way.map .name ++ pattern.segments) ⟨"/"⟩ visited) :
          visited.text.utf8ByteSize < Workspace.pathLimit := short _ visited there visits
      have expanded := Glob.relocated_expand h named (stays.goDown read) shorts
      have files := relocated_files h expanded fun path mem =>
        shorts path (Glob.visits_of_mem_expandSegments mem)
      generalize found : List.filter workspace.holdsFile _ = paths at files
      generalize ownFound : List.filter (Workspace.alone directory).holdsFile _ = own at files
      rw [value_expandEntry_of_some there found, value_expandEntry_of_some here ownFound]
      cases files with
      | nil => exact .cons whole .nil
      | cons first rest => exact Path.relocated_sorted h.lead (.cons first rest)

end Settings

/-! ## The configuration -/

namespace Workspace

variable {workspace : Workspace} {directory : FileTree}

/-- The paths that a check asks for in its project: the markers of the root, the manifest that there is
where none is named, and those that entries stand for and are followed along. -/
inductive Asks (workspace : Workspace) (root : Path) (entries : List String) : Path → Prop
  | marker {name : String} (mem : name ∈ Config.rootMarkers) :
      Asks workspace root entries (root.entry name)
  | unnamed (none : entries = []) : Asks workspace root entries (root.entry Manifest.defaultName)
  | entry {entry : String} (mem : entry ∈ entries) : Asks workspace root entries (root.entry entry)
  | visited {entry : String} (mem : entry ∈ entries) {pattern : Glob.Pattern}
      (read : Glob.Pattern.ofString? (root.entry entry).text = some pattern) {path : Path}
      (visits : Glob.Visits workspace pattern.segments ⟨"/"⟩ path) :
      Asks workspace root entries path

/-- What is configured is what the first configuration says that is there. -/
theorem value_loadConfig (workspace : Workspace) (root : Path) :
    (workspace.loadConfig root).value =
      (Config.files.find? fun file => workspace.holds (root.entry file.1)).bind fun file =>
        (workspace.readText (root.entry file.1)).toOption.bind fun text =>
          Config.parse? text file.2 := by
  unfold loadConfig
  split
  · next missing =>
    have undecided : (Config.files.find? fun file => workspace.holds (root.entry file.1)) = none :=
      missing
    rw [undecided]
    rfl
  · next name language found =>
    have decides : (Config.files.find? fun file => workspace.holds (root.entry file.1)) =
        some (name, language) := found
    rw [decides, Option.bind_some]
    dsimp only
    cases workspace.readText (root.entry name) with
    | error fault => rfl
    | ok text =>
      dsimp only [Except.toOption, Option.bind_some]
      cases Config.parse? text language <;> rfl

/-- Where the root is far from the limit, and entries have few parts, no path that is asked for is too
long. -/
theorem Asks.short (named : workspace.tree.AllNames IsEntryName) {root : Path} {entries : List String}
    (near : root.text.utf8ByteSize + (FileTree.nameLimit + 1) < pathLimit)
    (few : ∀ entry ∈ entries, Glob.FewParts root entry) {path : Path}
    (asks : workspace.Asks root entries path) : path.text.utf8ByteSize < pathLimit := by
  have bounded {name : String} (short : name.utf8ByteSize ≤ FileTree.nameLimit) :
      (root.entry name).text.utf8ByteSize < pathLimit := by
    have := Glob.utf8ByteSize_entry_le root name
    omega
  cases asks with
  | marker mem => exact bounded (isEntryName_of_mem_rootMarkers mem).short
  | unnamed => exact bounded (by decide)
  | entry mem => exact bounded (few _ mem).1
  | visited mem read visits =>
    obtain ⟨shallow, short⟩ := (few _ mem).2 _ read
    exact Nat.lt_of_le_of_lt (visits.utf8ByteSize_le named shallow) short

section

variable (h : workspace.StandsIn directory)
include h

theorem StandsIn.relocated_entry {name : String} (isName : IsEntryName name) :
    Path.Relocated workspace.way ((Path.absolute workspace.way).entry name)
      ((Path.absolute []).entry name) :=
  (Path.relocated_absolute workspace.way).entry h.lead isName.slashless isName.ne_dots.2

variable (short : ∀ name ∈ Config.rootMarkers,
  ((Path.absolute workspace.way).entry name).text.utf8ByteSize < pathLimit)
include short

theorem value_loadConfig_eq :
    (workspace.loadConfig (Path.absolute workspace.way)).value =
      ((alone directory).loadConfig (Path.absolute [])).value := by
  have marker {file : String × Config.Language} (mem : file ∈ Config.files) :
      file.1 ∈ Config.rootMarkers := List.mem_append_left _ (List.mem_map_of_mem mem)
  have same {name : String} (mem : name ∈ Config.rootMarkers) :=
    h.relocated_entry (isEntryName_of_mem_rootMarkers mem)
  have found : (Config.files.find? fun file =>
        workspace.holds ((Path.absolute workspace.way).entry file.1)) =
      Config.files.find? fun file => (alone directory).holds ((Path.absolute []).entry file.1) :=
    List.find?_congr fun file mem =>
      h.holds_eq (same (marker mem)) (short file.1 (marker mem))
  rw [value_loadConfig, value_loadConfig, found]
  refine Option.bind_congr fun file decides => ?_
  have mem := marker (List.mem_of_find?_eq_some decides)
  rw [h.readText_eq (same mem) (short _ mem)]

/-- A marked directory is the root of the project around it. -/
theorem projectRoot_eq {name : String} (mem : name ∈ Config.rootMarkers) {marker : FileTree}
    (found : directory.entry? name = some marker) :
    workspace.projectRoot (Path.absolute workspace.way) = Path.absolute workspace.way := by
  have isName := isEntryName_of_mem_rootMarkers mem
  have located : (alone directory).locate ((Path.absolute []).entry name) = .ok marker := by
    have small : ∀ name ∈ Config.rootMarkers,
        ((Path.absolute []).entry name).text.utf8ByteSize < pathLimit := by decide
    have written := Path.leadDown_nil.entry isName.slashless
    have nulless : ¬ ∃ segment ∈ [] ++ [name.toList], '\x00' ∈ segment := by
      simpa using isName.nulless
    have shorter := small name mem
    rw [written] at shorter ⊢
    rw [locate_absolute (by simpa [Path.Slashless] using isName.slashless) h.inside shorter,
      if_neg nulless, List.nil_append, alone, FileTree.walk_entry isName found]
    rfl
  have marked : workspace.marksRoot (Path.absolute workspace.way) = true := by
    refine List.any_eq_true.2 ⟨name, mem, ?_⟩
    rw [h.holds_eq (h.relocated_entry isName) (short _ mem), holds, located]
  rw [projectRoot, Path.ancestors, List.find?_cons_of_pos marked]
  rfl

end

end Workspace

namespace Settings

variable {workspace : Workspace} {directory : FileTree}

theorem asks_of_mem_manifestPaths {root path : Path} (rooted : root.isAbsolute = true)
    {configured : Option (List String)}
    (mem : path ∈ (manifestPaths workspace root root [] configured).value) :
    workspace.Asks root (configured.getD []) path := by
  obtain ⟨entries, rfl, expanded⟩ | ⟨none, single⟩ := manifestPaths_cases configured
  · rw [expanded, value_expandEntries] at mem
    obtain ⟨entry, listed, mem⟩ := List.mem_flatMap.1 (Path.mem_of_mem_distinctFrom mem)
    obtain rfl | ⟨pattern, read, found, -⟩ := mem_expandEntry mem
    · exact .entry listed
    · rw [Glob.Pattern.expand, absolute_of_ofString? (Path.isAbsolute_entry rooted entry) read,
        if_pos rfl] at found
      exact .visited listed read (Glob.visits_of_mem_expandSegments found)
  · rw [single, List.mem_singleton] at mem
    rw [mem]
    exact .unnamed none

theorem relocated_manifestPaths (h : workspace.StandsIn directory)
    (named : directory.AllNames IsEntryName) (plain : ∀ name ∈ workspace.way, Glob.Plain name)
    {configured : Option (List String)} (stays : ∀ entry ∈ configured.getD [], Glob.StaysBelow entry)
    (short : ∀ path, workspace.Asks (Path.absolute workspace.way) (configured.getD []) path →
      path.text.utf8ByteSize < Workspace.pathLimit) :
    List.Forall₂ (Path.Relocated workspace.way)
      (manifestPaths workspace (Path.absolute workspace.way) (Path.absolute workspace.way) []
        configured).value
      (manifestPaths (.alone directory) (Path.absolute []) (Path.absolute []) [] configured).value := by
  match configured with
  | none | some [] =>
    exact .cons (h.relocated_entry (by decide)) .nil
  | some (first :: rest) =>
    have expanded (place : Workspace) (root : Path) :
        (manifestPaths place root root [] (some (first :: rest))).value =
          Path.distinct ((first :: rest).flatMap fun entry => (expandEntry place root entry).value) :=
      value_expandEntries (first :: rest)
    rw [expanded, expanded]
    refine Path.relocated_distinctFrom h.lead .nil (Glob.forall₂_flatMap_self fun entry mem => ?_)
    exact relocated_expandEntry h named plain (stays entry mem)
      fun pattern visited read visits => short visited (.visited mem read visits)

end Settings

end ManifestLint
