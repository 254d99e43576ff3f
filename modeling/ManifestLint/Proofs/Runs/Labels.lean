import ManifestLint.Proofs.FileTree.Places
import ManifestLint.Proofs.Paths.Labels
import ManifestLint.Proofs.Runs.AllOrNothing
import ManifestLint.Proofs.Settings.Manifests

/-!
# Labels in a report

Whether the labels of a report tell its manifests apart. Those of configured manifests always do: all
of them are absolute, and no two name the same path. Manifests that are asked for may be given in two
ways, and a relative one is labelled as it is given, from wherever the run was started.

* `nodup_labels_of_configured`: no two configured manifests share a label;
* `place_eq_of_label_eq`: manifests given in one way that share a label are the same file;
* `label_shared_by_two_places`: manifests given in two ways that share a label and are not.
-/

namespace ManifestLint

namespace Workspace

variable {workspace : Workspace} {schedule : Schedule} {root : Path} {paths : List Path}
  {report : Report}

theorem labels_of_lint (run : (workspace.lint schedule root paths).value = .ok report) :
    report.manifests.map (·.label) = paths.map root.label := by
  obtain ⟨manifests, described, rfl⟩ := lint_eq_ok_iff.1 run
  have labelled : List.Forall₂ (fun path manifest => root.label path = manifest.label) paths
      manifests := described.imp fun path manifest => by
    rintro ⟨text, -, rfl⟩
    rfl
  have equal : List.Forall₂ (· = ·) (paths.map root.label) (manifests.map (·.label)) := by
    rw [List.forall₂_map_left_iff, List.forall₂_map_right_iff]
    exact labelled
  exact (List.forall₂_eq_eq_eq ▸ equal).symm

/-- No two configured manifests of a project share a label. -/
theorem nodup_labels_of_configured (workspace : Workspace) {directory : Path}
    (absolute : directory.isAbsolute = true) {options : CommandLine.CheckOptions}
    (unasked : options.paths = []) {settings : Settings}
    (settled : (Settings.resolveIn workspace directory options).value = settings)
    {schedule : Schedule} {report : Report}
    (run : (workspace.lint schedule settings.projectRoot settings.manifests).value = .ok report) :
    (report.manifests.map (·.label)).Nodup := by
  have started := Settings.isAbsolute_startOf absolute options
  have rooted : (workspace.projectRoot (Settings.startOf directory options)).isAbsolute = true :=
    Settings.isAbsolute_projectRoot started
  rw [labels_of_lint run, ← settled, Settings.value_resolveIn, unasked]
  refine List.Pairwise.map _ (fun a b => id) ?_
  refine (Settings.pairwise_manifestPaths _).imp_of_mem fun memA memB apart same => apart ?_
  exact Path.components_eq_of_label_eq (Settings.isAbsolute_of_mem_manifestPaths rooted started memA)
    (Settings.isAbsolute_of_mem_manifestPaths rooted started memB) same

/-- Entries of every kind that overlap: three manifests are left, under three labels. -/
theorem nodup_labels_of_configured_overlapping :
    let config := "manifests = ['*/file', 'a/file', '/p/a/./file', '../p/a/file', '/q']"
    let workspace : Workspace :=
      ⟨.directory [("p", .directory [("a", .directory [("file", .file "USER app".toUTF8)]),
        ("dockscan.toml", .file config.toUTF8)]), ("q", .file "ADD x".toUTF8)], [], 0⟩
    let options : CommandLine.CheckOptions := ⟨[], some "p", none, false⟩
    let settings := (Settings.resolveIn workspace ⟨"/"⟩ options).value
    ∃ report, (workspace.lint .oneByOne settings.projectRoot settings.manifests).value = .ok report ∧
      report.manifests.map (·.label) =
        ["a/file", "/p/../p/a/file", "/q"] ∧
      (report.manifests.map (·.label)).Nodup := by
  intro config workspace options settings
  have labels : (workspace.lint .oneByOne settings.projectRoot settings.manifests).value.toOption.map
      (fun report => report.manifests.map (·.label)) =
        some ["a/file", "/p/../p/a/file", "/q"] := by decide +kernel
  cases run : (workspace.lint .oneByOne settings.projectRoot settings.manifests).value with
  | error error => rw [run] at labels; cases labels
  | ok report =>
    rw [run] at labels
    have absolute : (Path.mk "/").isAbsolute = true := rfl
    have unasked : options.paths = [] := rfl
    exact ⟨report, rfl, Option.some.inj labels,
      nodup_labels_of_configured workspace absolute unasked rfl run⟩

/-- Two manifests that are given in one way, as relative or as absolute paths, and share a label have the
same place, and are the same file in a working directory that is still there. Where the root is the
working directory itself, so are any two that share one. -/
theorem place_eq_of_label_eq (workspace : Workspace) (root : Path) {paths : List Path}
    {schedule : Schedule} {report : Report}
    (run : (workspace.lint schedule root paths).value = .ok report) {i j : Nat} {a b : Path}
    (first : paths[i]? = some a) (second : paths[j]? = some b)
    (same : (report.manifests[i]?).map (·.label) = (report.manifests[j]?).map (·.label))
    (alike : a.isAbsolute = b.isAbsolute ∨ workspace.names root = workspace.workingDirectory) :
    workspace.names a = workspace.names b ∧
      (workspace.removed = 0 →
        (∃ here, FileTree.trail? workspace.workingDirectory [workspace.tree] = some here) →
          workspace.locate a = workspace.locate b) := by
  have shared : root.label a = root.label b := by
    rw [← List.getElem?_map, ← List.getElem?_map, labels_of_lint run, List.getElem?_map,
      List.getElem?_map, first, second] at same
    exact Option.some.inj same
  -- A relative path goes on from the working directory as an absolute one below the root goes on there.
  have mixed {c d : Path} (hc : c.isAbsolute = false) (hd : d.isAbsolute = true)
      (label : root.label c = root.label d)
      (there : workspace.names root = workspace.workingDirectory) :
      workspace.names c = workspace.names d := by
    have split := Path.components_eq_of_label_eq_relative hc hd label
    rw [names] at there
    rw [names, names, split, List.foldl_append, there]
  have place : workspace.names a = workspace.names b := by
    cases ha : a.isAbsolute <;> cases hb : b.isAbsolute
    · rw [Path.label_of_relative ha, Path.label_of_relative hb] at shared
      rw [Path.ext_toList (congrArg String.toList shared)]
    · refine mixed ha hb shared (alike.resolve_left ?_)
      simp [ha, hb]
    · refine (mixed hb ha shared.symm (alike.resolve_left ?_)).symm
      simp [ha, hb]
    · rw [names, names, Path.components_eq_of_label_eq ha hb shared]
  refine ⟨place, ?_⟩
  rintro present ⟨here, led⟩
  have readable := exists_lint_eq_ok_iff.1 ⟨report, run⟩
  obtain ⟨text, held⟩ := readable a (List.mem_of_getElem? first)
  obtain ⟨other, otherHeld⟩ := readable b (List.mem_of_getElem? second)
  rw [HoldsText] at held otherHeld
  rw [held, otherHeld, eq_of_names_eq present led place held otherHeld]

/-- One file in two spellings, given as absolute paths. -/
theorem place_eq_of_label_eq_spelled :
    let workspace : Workspace := ⟨.directory [("p", .directory [("a", .file "ADD x".toUTF8)])], ["p"], 0⟩
    ∃ report, (workspace.lint .oneByOne ⟨"/"⟩ [⟨"/p/./a"⟩, ⟨"//p/a"⟩]).value = .ok report ∧
      report.manifests.map (·.label) = ["p/a", "p/a"] ∧
      workspace.names ⟨"/p/./a"⟩ = ["p", "a"] ∧
      workspace.names ⟨"/p/./a"⟩ = workspace.names ⟨"//p/a"⟩ ∧
      workspace.locate ⟨"/p/./a"⟩ = workspace.locate ⟨"//p/a"⟩ := by
  intro workspace
  have labels : (workspace.lint .oneByOne ⟨"/"⟩ [⟨"/p/./a"⟩, ⟨"//p/a"⟩]).value.toOption.map
      (fun report => report.manifests.map (·.label)) = some ["p/a", "p/a"] := by decide +kernel
  cases run : (workspace.lint .oneByOne ⟨"/"⟩ [⟨"/p/./a"⟩, ⟨"//p/a"⟩]).value with
  | error error => rw [run] at labels; cases labels
  | ok report =>
    rw [run] at labels
    have labelled : report.manifests.map (·.label) = ["p/a", "p/a"] := Option.some.inj labels
    have same : (report.manifests[0]?).map (·.label) = (report.manifests[1]?).map (·.label) := by
      rw [← List.getElem?_map, ← List.getElem?_map, labelled]
      rfl
    obtain ⟨place, found⟩ :=
      place_eq_of_label_eq workspace ⟨"/"⟩ run (i := 0) (j := 1) rfl rfl same (.inl rfl)
    exact ⟨report, rfl, labelled, by decide +kernel, place, found rfl ⟨_, rfl⟩⟩

/-- From a directory below the root, a relative path and an absolute one share a label, and are two
files. -/
theorem label_shared_by_two_places :
    let workspace : Workspace :=
      ⟨.directory [(".git", .directory []), ("Dockerfile", .file "USER app".toUTF8),
        ("sub", .directory [("Dockerfile", .file "ADD x".toUTF8)])], ["sub"], 0⟩
    let settings :=
      (Settings.resolve workspace ⟨["Dockerfile", "/Dockerfile"], none, none, false⟩).value
    settings.manifests = [⟨"Dockerfile"⟩, ⟨"/Dockerfile"⟩] ∧
      (∀ schedule, (workspace.lint schedule settings.projectRoot settings.manifests).value.toOption.map
        (fun report => report.manifests.map (·.label)) = some ["Dockerfile", "Dockerfile"]) ∧
      workspace.names ⟨"Dockerfile"⟩ = ["sub", "Dockerfile"] ∧
      workspace.names ⟨"/Dockerfile"⟩ = ["Dockerfile"] := by
  refine ⟨by decide +kernel, ?_, by decide +kernel, by decide +kernel⟩
  intro schedule
  rw [toOption_lint]
  decide +kernel

end Workspace

end ManifestLint
