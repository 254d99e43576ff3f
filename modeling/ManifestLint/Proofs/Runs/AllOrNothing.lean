import Mathlib.Algebra.GroupWithZero.Nat
import Mathlib.Data.List.Perm.Basic
import ManifestLint.Lint
import ManifestLint.Proofs.Runs.Schedules

/-!
# Runs over several manifests

A run reads every manifest or fails, under whatever schedule. Main statement: `lint_all_or_nothing`.

* `HoldsText`, `Describes`: what a path holds, and the report that belongs to it, with nothing run;
* `value_report`, `events_report_of_error`: the check of one manifest, which logs nothing if it fails;
* `lint_eq_ok_iff`, `lint_eq_error`: a run succeeds with the reports that belong to its paths, and
  fails with the error of one of them;
* `summary_ofManifests`, `ofManifests_append`: the totals are sums over the manifests.
-/

namespace ManifestLint

/-! ## One manifest -/

namespace Workspace

variable (workspace : Workspace) (root : Path)

/-- There is a file at a path, and its bytes are those of a text. -/
def HoldsText (path : Path) (text : String) : Prop :=
  workspace.locate path = .ok (.file text.toUTF8)

/-- The report that belongs to a path: under its label, what the rules find in its lines. -/
def Describes (path : Path) (report : ManifestReport) : Prop :=
  ∃ text, workspace.HoldsText path text ∧
    report = ⟨root.label path, Rule.checkAll (Text.splitLines text)⟩

/-- The report on one manifest. -/
def reportOn (path : Path) : Except LoadError ManifestReport :=
  match workspace.readText path with
  | .ok text => .ok ⟨root.label path, Rule.checkAll (Text.splitLines text)⟩
  | .error fault => .error ⟨path, fault⟩

variable {workspace root} {path : Path}

theorem fromUTF8?_eq_some_iff {bytes : ByteArray} {text : String} :
    String.fromUTF8? bytes = some text ↔ bytes = text.toUTF8 := by
  unfold String.fromUTF8?
  constructor
  · intro h
    split at h
    · cases h; rfl
    · cases h
  · rintro rfl
    exact dif_pos text.isValidUTF8

theorem readText_eq_ok_iff {text : String} :
    workspace.readText path = .ok text ↔ workspace.HoldsText path text := by
  unfold readText HoldsText
  cases workspace.locate path with
  | error fault => simp [bind, Except.bind]
  | ok tree =>
    cases tree with
    | directory entries => simp [bind, Except.bind, throw, throwThe, MonadExceptOf.throw]
    | file bytes =>
      rw [Except.ok.injEq, FileTree.file.injEq, ← fromUTF8?_eq_some_iff]
      cases h : String.fromUTF8? bytes <;>
        simp [bind, Except.bind, pure, Except.pure, throw, throwThe, MonadExceptOf.throw, h]

theorem reportOn_eq_ok_iff {report : ManifestReport} :
    workspace.reportOn root path = .ok report ↔ workspace.Describes root path report := by
  unfold reportOn Describes
  simp only [← readText_eq_ok_iff]
  cases workspace.readText path with
  | error fault => simp
  | ok text => simp [eq_comm]

/-- The error of a manifest bears its path and the fault that reading it met. -/
theorem reportOn_eq_error_iff {error : LoadError} :
    workspace.reportOn root path = .error error ↔
      error.path = path ∧ workspace.readText path = .error error.fault := by
  obtain ⟨at_, fault⟩ := error
  unfold reportOn
  cases workspace.readText path with
  | error met => simp [eq_comm]
  | ok text => simp

theorem value_run (path : Path) :
    ((Checker.mk path).run workspace).value =
      match workspace.readText path with
      | .ok text => .ok (Rule.checkAll (Text.splitLines text))
      | .error fault => .error ⟨path, fault⟩ := by
  unfold Checker.run loadManifest
  cases workspace.readText path <;> rfl

theorem value_report (path : Path) :
    (workspace.report root path).value = workspace.reportOn root path := by
  rw [report, Logged.value_bind, value_run, reportOn]
  cases workspace.readText path <;> rfl

theorem events_report (path : Path) :
    (workspace.report root path).events = ((Checker.mk path).run workspace).events := by
  rw [report, Logged.events_bind, Logged.events_pure, List.append_nil]

/-- A check that fails logs nothing. -/
theorem events_report_of_error {error : LoadError}
    (h : (workspace.report root path).value = .error error) :
    (workspace.report root path).events = [] := by
  rw [value_report, reportOn_eq_error_iff] at h
  rw [events_report, Checker.run, loadManifest, h.2]
  rfl

theorem mapM_value_report (paths : List Path) :
    (paths.map (workspace.report root)).mapM (·.value) = paths.mapM (workspace.reportOn root) := by
  rw [List.mapM_map]
  exact congrArg (paths.mapM ·) (funext value_report)

/-- The reports of a run are those on its manifests, each from its own path alone. -/
theorem value_reports_eq_ok_iff {schedule : Schedule} {paths : List Path}
    {manifests : List ManifestReport} :
    (workspace.reports schedule root paths).value = .ok manifests ↔
      paths.mapM (workspace.reportOn root) = .ok manifests := by
  rw [reports, Schedule.value_run_eq_ok_iff, mapM_value_report]

theorem toOption_reports (schedule : Schedule) (paths : List Path) :
    (workspace.reports schedule root paths).value.toOption =
      (paths.mapM (workspace.reportOn root)).toOption := by
  rw [reports, Schedule.toOption_value_run, mapM_value_report]

end Workspace

/-! ## Totals -/

namespace Report

/-- The report on the manifests of two reports. -/
def append (a b : Report) : Report where
  manifests := a.manifests ++ b.manifests
  summary := ⟨a.summary.warnings + b.summary.warnings, a.summary.infos + b.summary.infos,
    a.summary.manifests + b.summary.manifests⟩

/-- How many findings of a severity the manifests have, manifest by manifest. -/
def tally (severity : Severity) (manifests : List ManifestReport) : Nat :=
  (manifests.map fun manifest => manifest.findings.countP (·.severity == severity)).sum

theorem count_eq_tally (severity : Severity) (manifests : List ManifestReport) :
    count severity manifests = tally severity manifests :=
  List.countP_flatMap

theorem tally_append (severity : Severity) (a b : List ManifestReport) :
    tally severity (a ++ b) = tally severity a + tally severity b := by
  simp [tally]

theorem tally_perm (severity : Severity) {a b : List ManifestReport} (h : a.Perm b) :
    tally severity a = tally severity b :=
  (h.map _).sum_nat

theorem ofManifests_append (a b : List ManifestReport) :
    ofManifests (a ++ b) = (ofManifests a).append (ofManifests b) := by
  simp [ofManifests, append, count_eq_tally, tally_append]

theorem summary_ofManifests_perm {a b : List ManifestReport} (h : a.Perm b) :
    (ofManifests a).summary = (ofManifests b).summary := by
  simp [ofManifests, count_eq_tally, tally_perm _ h, h.length_eq]

end Report

/-! ## The whole run -/

namespace Workspace

variable {workspace : Workspace} {schedule : Schedule} {root : Path} {paths : List Path}

theorem lint_eq_ok_iff {report : Report} :
    (workspace.lint schedule root paths).value = .ok report ↔
      ∃ manifests, List.Forall₂ (workspace.Describes root) paths manifests ∧
        report = .ofManifests manifests := by
  have reported (manifests : List ManifestReport) :
      List.Forall₂ (workspace.Describes root) paths manifests ↔
        paths.mapM (workspace.reportOn root) = .ok manifests := by
    simp only [mapM_eq_ok_iff, reportOn_eq_ok_iff]
  simp only [reported, ← @value_reports_eq_ok_iff workspace root schedule]
  rw [lint, Logged.value_bind]
  cases (workspace.reports schedule root paths).value with
  | error error => simp [Except.map]
  | ok manifests => simp [Except.map, eq_comm]

/-- A run that fails gives the error of one of its manifests, which holds no text. -/
theorem lint_eq_error {error : LoadError}
    (h : (workspace.lint schedule root paths).value = .error error) :
    error.path ∈ paths ∧ workspace.readText error.path = .error error.fault ∧
      ¬ ∃ text, workspace.HoldsText error.path text := by
  rw [lint, Logged.value_bind] at h
  cases run : (workspace.reports schedule root paths).value with
  | ok manifests => rw [run] at h; cases h
  | error met =>
    rw [run] at h
    cases h
    obtain ⟨check, among, failed⟩ := Schedule.exists_mem_of_value_run_eq_error run
    obtain ⟨path, mem, rfl⟩ := List.mem_map.1 among
    rw [value_report] at failed
    obtain ⟨rfl, fault⟩ := reportOn_eq_error_iff.1 failed
    refine ⟨mem, fault, ?_⟩
    rintro ⟨text, holds⟩
    rw [readText_eq_ok_iff.2 holds] at fault; cases fault

/-- A run succeeds exactly if every manifest holds a text. -/
theorem exists_lint_eq_ok_iff :
    (∃ report, (workspace.lint schedule root paths).value = .ok report) ↔
      ∀ path ∈ paths, ∃ text, workspace.HoldsText path text := by
  constructor
  · rintro ⟨report, run⟩ path mem
    obtain ⟨manifests, described, -⟩ := lint_eq_ok_iff.1 run
    have held : List.Forall₂ (fun path manifest => (∃ text, workspace.HoldsText path text) ∧
        workspace.Describes root path manifest) paths manifests :=
      described.imp fun _ _ describes => ⟨describes.imp fun _ h => h.1, describes⟩
    exact ((List.forall₂_and_left _ _).1 held).1 path mem
  · intro readable
    obtain ⟨manifests, run⟩ := exists_mapM_eq_ok (f := workspace.reportOn root) fun path mem => by
      obtain ⟨text, holds⟩ := readable path mem
      exact ⟨_, reportOn_eq_ok_iff.2 ⟨text, holds, rfl⟩⟩
    have described : List.Forall₂ (workspace.Describes root) paths manifests :=
      (mapM_eq_ok_iff.1 run).imp fun _ _ succeeded => reportOn_eq_ok_iff.1 succeeded
    exact ⟨.ofManifests manifests, lint_eq_ok_iff.2 ⟨manifests, described, rfl⟩⟩

theorem exists_lint_eq_error_iff :
    (∃ error, (workspace.lint schedule root paths).value = .error error) ↔
      ∃ path ∈ paths, ¬ ∃ text, workspace.HoldsText path text := by
  constructor
  · rintro ⟨error, failed⟩
    obtain ⟨mem, -, unread⟩ := lint_eq_error failed
    exact ⟨error.path, mem, unread⟩
  · rintro ⟨path, mem, unread⟩
    cases run : (workspace.lint schedule root paths).value with
    | error error => exact ⟨error, rfl⟩
    | ok report => exact absurd (exists_lint_eq_ok_iff.1 ⟨report, run⟩ path mem) unread

/-- What a run comes to if it succeeds, whatever the schedule. -/
theorem toOption_lint :
    (workspace.lint schedule root paths).value.toOption =
      (paths.mapM (workspace.reportOn root)).toOption.map .ofManifests := by
  rw [← toOption_reports schedule, lint, Logged.value_bind]
  cases (workspace.reports schedule root paths).value <;> rfl

theorem lint_append {first second : Schedule} {front back : List Path} {a b : Report}
    (ha : (workspace.lint first root front).value = .ok a)
    (hb : (workspace.lint second root back).value = .ok b) :
    (workspace.lint schedule root (front ++ back)).value = .ok (a.append b) := by
  obtain ⟨manifests, described, rfl⟩ := lint_eq_ok_iff.1 ha
  obtain ⟨others, described', rfl⟩ := lint_eq_ok_iff.1 hb
  exact lint_eq_ok_iff.2
    ⟨manifests ++ others, List.rel_append described described', (Report.ofManifests_append _ _).symm⟩

theorem lint_perm {other : Schedule} {others : List Path} (same : others.Perm paths) {report : Report}
    (h : (workspace.lint schedule root paths).value = .ok report) :
    ∃ moved, (workspace.lint other root others).value = .ok moved ∧
      moved.manifests.Perm report.manifests ∧ moved.summary = report.summary := by
  obtain ⟨manifests, described, rfl⟩ := lint_eq_ok_iff.1 h
  obtain ⟨moved, described', perm⟩ := List.perm_comp_forall₂ same described
  exact ⟨.ofManifests moved, lint_eq_ok_iff.2 ⟨moved, described', rfl⟩, perm,
    Report.summary_ofManifests_perm perm⟩

/-- **A run is all or nothing,** under every schedule. It succeeds exactly if every manifest holds a text.
If it fails, it is with the error of a manifest of its list, which holds none. If it succeeds, it has one
report for each manifest, in their order, each from that manifest alone, and the totals of those. So runs
join as their lists do, and reordering the list reorders the reports. -/
theorem lint_all_or_nothing (workspace : Workspace) (root : Path) :
    (∀ schedule paths, (∃ report, (workspace.lint schedule root paths).value = .ok report) ↔
      ∀ path ∈ paths, ∃ text, workspace.HoldsText path text) ∧
    (∀ schedule paths error, (workspace.lint schedule root paths).value = .error error →
      error.path ∈ paths ∧ workspace.readText error.path = .error error.fault ∧
        ¬ ∃ text, workspace.HoldsText error.path text) ∧
    (∀ schedule paths report, (workspace.lint schedule root paths).value = .ok report →
      List.Forall₂ (workspace.Describes root) paths report.manifests ∧
        report.summary = ⟨Report.tally .warning report.manifests,
          Report.tally .info report.manifests, report.manifests.length⟩) ∧
    (∀ (first second together : Schedule) front back,
      (∀ a b, (workspace.lint first root front).value = .ok a →
        (workspace.lint second root back).value = .ok b →
          (workspace.lint together root (front ++ back)).value = .ok (a.append b)) ∧
      ((∃ error, (workspace.lint together root (front ++ back)).value = .error error) ↔
        (∃ error, (workspace.lint first root front).value = .error error) ∨
          ∃ error, (workspace.lint second root back).value = .error error)) ∧
    ∀ (schedule other : Schedule) paths others, others.Perm paths →
      ∀ report, (workspace.lint schedule root paths).value = .ok report →
        ∃ moved, (workspace.lint other root others).value = .ok moved ∧
          moved.manifests.Perm report.manifests ∧ moved.summary = report.summary := by
  refine ⟨fun _ _ => exists_lint_eq_ok_iff, fun _ _ _ => lint_eq_error,
    fun schedule paths report run => ?_, fun first second together front back =>
      ⟨fun _ _ => lint_append, ?_⟩, fun _ _ _ _ same _ => lint_perm same⟩
  · obtain ⟨manifests, described, rfl⟩ := lint_eq_ok_iff.1 run
    exact ⟨described, by simp [Report.ofManifests, Report.count_eq_tally]⟩
  · simp only [exists_lint_eq_error_iff, List.mem_append, or_and_right, exists_or]

/-- Two manifests, checked one by one, together, the other way round, and with one that is missing. -/
theorem lint_all_or_nothing_two :
    let workspace : Workspace :=
      ⟨.directory [("a", .file "ADD x".toUTF8), ("c", .file ByteArray.empty)], [], 0⟩
    let a := Report.ofManifests [⟨"a", [Rule.NonRootUser.noUser, Rule.AddOrCopy.added 1]⟩]
    let c := Report.ofManifests [⟨"c", [Rule.NonRootUser.noUser]⟩]
    let both : Schedule := ⟨[1, 0, 1]⟩
    (workspace.lint .oneByOne ⟨"/"⟩ [⟨"/a"⟩]).value = .ok a ∧ a.summary = ⟨2, 0, 1⟩ ∧
      (workspace.lint .oneByOne ⟨"/"⟩ [⟨"/c"⟩]).value = .ok c ∧
      (workspace.lint both ⟨"/"⟩ [⟨"/a"⟩, ⟨"/c"⟩]).value = .ok (a.append c) ∧
      (∃ moved, (workspace.lint .oneByOne ⟨"/"⟩ [⟨"/c"⟩, ⟨"/a"⟩]).value = .ok moved ∧
        moved.manifests.Perm (a.append c).manifests ∧ moved.summary = (a.append c).summary) ∧
      (workspace.lint both ⟨"/"⟩ [⟨"/b"⟩, ⟨"/a"⟩]).value = .error ⟨⟨"/b"⟩, .notFound⟩ ∧
      ¬ ∃ text, workspace.HoldsText ⟨"/b"⟩ text := by
  intro workspace a c both
  have law := lint_all_or_nothing workspace ⟨"/"⟩
  have linesA : Text.splitLines "ADD x" = ["ADD x"] := by decide +kernel
  have linesC : Text.splitLines "" = [] := by decide +kernel
  have foundA : Rule.checkAll ["ADD x"] =
      [Rule.NonRootUser.noUser, Rule.AddOrCopy.added 1] := by decide
  have holdsA : workspace.HoldsText ⟨"/a"⟩ "ADD x" := rfl
  have holdsC : workspace.HoldsText ⟨"/c"⟩ "" := rfl
  have runA : (workspace.lint .oneByOne ⟨"/"⟩ [⟨"/a"⟩]).value = .ok a :=
    lint_eq_ok_iff.2 ⟨_, .cons ⟨_, holdsA, by rw [linesA, foundA]; rfl⟩ .nil, rfl⟩
  have runC : (workspace.lint .oneByOne ⟨"/"⟩ [⟨"/c"⟩]).value = .ok c :=
    lint_eq_ok_iff.2 ⟨_, .cons ⟨_, holdsC, by rw [linesC]; rfl⟩ .nil, rfl⟩
  have joined := (law.2.2.2.1 .oneByOne .oneByOne both [⟨"/a"⟩] [⟨"/c"⟩]).1 a c runA runC
  have failed : (workspace.lint both ⟨"/"⟩ [⟨"/b"⟩, ⟨"/a"⟩]).value =
      .error ⟨⟨"/b"⟩, .notFound⟩ := rfl
  exact ⟨runA, (law.2.2.1 _ _ _ runA).2, runC, joined,
    law.2.2.2.2 _ _ _ _ (List.Perm.swap _ _ _) _ joined, failed, (law.2.1 _ _ _ failed).2.2⟩

end Workspace

end ManifestLint
