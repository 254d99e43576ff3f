import ManifestLint.Proofs.Runs.Outcomes

/-!
# What a command comes to and tells

A command is settled, and if its settings ask for a report, its manifests are checked under the schedule.
So what it tells is what it tells before, and then what the checks tell, and the schedule has a part in it
by what the checks come to and by nothing else.

* `told`, `told_eq`: all that a command tells about itself, with nothing left out, before its manifests
  are checked and then;
* `perform_eq`: what a command comes to, and that only its log hangs on the verbosity;
* `value_run_checks`: where at most one manifest fails, the schedule decides no value;
* `told_perm`: where a command succeeds, the schedule decides no more than the order of what it tells.
-/

namespace ManifestLint.Program

open CommandLine (Command)

variable (workspace : Workspace) (terminals : Terminals)

/-- All that a command tells about itself, whatever is shown of it. -/
def told (schedule : Schedule) : Command → List Log.Event
  | .version | .rules => []
  | .check options =>
    (Settings.resolve workspace options >>= checkWith workspace terminals schedule).events

/-- The settings by which a command checks manifests, if it comes to that. -/
def settings? : Command → Option Settings
  | .version | .rules => none
  | .check options =>
    let settings := (Settings.resolve workspace options).value
    (Report.Format.ofName? settings.output).map fun _ => settings

/-- The manifests that a command checks. -/
def manifests (command : Command) : List Path :=
  ((settings? workspace command).map Settings.manifests).getD []

/-- The checks of a command, one for each of its manifests. -/
def checks (command : Command) : List (Logged (Except LoadError ManifestReport)) :=
  match settings? workspace command with
  | some settings => settings.manifests.map (workspace.report settings.projectRoot)
  | none => []

/-- What a command tells while it is settled. -/
def settling : Command → List Log.Event
  | .version | .rules => []
  | .check options => (Settings.resolve workspace options).events

/-- What a command tells before its manifests are checked. -/
def toldFirst (command : Command) : List Log.Event :=
  settling workspace command ++ ((settings? workspace command).map fun settings =>
    .checking settings.projectRoot settings.manifests.length).toList

/-- At most one of the manifests that a command checks, if often, holds no text. -/
def OneFailsAtMost (command : Command) : Prop :=
  ∀ path ∈ manifests workspace command, ∀ other ∈ manifests workspace command,
    (¬ ∃ text, workspace.HoldsText path text) → (¬ ∃ text, workspace.HoldsText other text) → path = other

/-! ## What a command comes to -/

section

variable {workspace terminals} {schedule other : Schedule} {settings : Settings} {command : Command}

theorem events_checkWith :
    (checkWith workspace terminals schedule settings).events =
      match Report.Format.ofName? settings.output with
      | some _ => .checking settings.projectRoot settings.manifests.length ::
          (workspace.reports schedule settings.projectRoot settings.manifests).events
      | none => [] := by
  unfold checkWith
  cases Report.Format.ofName? settings.output with
  | none => rfl
  | some format =>
    have listed : (workspace.lint schedule settings.projectRoot settings.manifests).events =
        (workspace.reports schedule settings.projectRoot settings.manifests).events := by
      rw [Workspace.lint, Logged.events_bind, Logged.events_pure, List.append_nil]
    dsimp only [Logged.events_bind]
    rw [listed]
    cases (workspace.lint schedule settings.projectRoot settings.manifests).value <;> simp [Logged.log]

/-- What a command tells, before its manifests are checked and then. -/
theorem told_eq (schedule : Schedule) (command : Command) :
    told workspace terminals schedule command =
      toldFirst workspace command ++ (schedule.run (checks workspace command)).events := by
  cases command with
  | version => exact (Schedule.events_run_nil schedule).symm
  | rules => exact (Schedule.events_run_nil schedule).symm
  | check options =>
    rw [told, Logged.events_bind, events_checkWith, toldFirst, settling, checks, settings?]
    cases Report.Format.ofName? (Settings.resolve workspace options).value.output with
    | none => simp [Schedule.events_run_nil]
    | some format => simp [Workspace.reports]

theorem value_checkWith_congr
    (same : (workspace.reports schedule settings.projectRoot settings.manifests).value =
      (workspace.reports other settings.projectRoot settings.manifests).value) :
    (checkWith workspace terminals schedule settings).value =
      (checkWith workspace terminals other settings).value := by
  unfold checkWith
  cases Report.Format.ofName? settings.output with
  | none => rfl
  | some format =>
    dsimp only [Logged.value_bind, Workspace.lint]
    rw [same]

/-- What a command comes to at one verbosity is what it comes to at any other, save for its log, under
every schedule that gives its checks the same value. -/
theorem perform_eq (verbosity more : Nat)
    (same : (schedule.run (checks workspace command)).value =
      (other.run (checks workspace command)).value) :
    perform workspace terminals schedule ⟨verbosity, command⟩ =
      { perform workspace terminals other ⟨more, command⟩ with
        log := Log.shown verbosity (told workspace terminals schedule command) } := by
  cases command with
  | version => rfl
  | rules => rfl
  | check options =>
    have value :
        (checkWith workspace terminals schedule (Settings.resolve workspace options).value).value =
          (checkWith workspace terminals other (Settings.resolve workspace options).value).value := by
      cases named : Report.Format.ofName? (Settings.resolve workspace options).value.output with
      | none => rw [checkWith, checkWith, named]
      | some format =>
        rw [checks, settings?, named] at same
        exact value_checkWith_congr same
    simp only [perform, check, told, Logged.value_bind]
    rw [value]
    split <;> rfl

theorem log_perform (verbosity : Nat) :
    (perform workspace terminals schedule ⟨verbosity, command⟩).log =
      Log.shown verbosity (told workspace terminals schedule command) :=
  congrArg Outcome.log (perform_eq verbosity verbosity rfl)

/-! ## What checks come to and tell -/

theorem exists_of_mem_checks {check : Logged (Except LoadError ManifestReport)}
    (mem : check ∈ checks workspace command) :
    ∃ settings, settings? workspace command = some settings ∧
      ∃ path ∈ settings.manifests, check = workspace.report settings.projectRoot path := by
  rw [checks] at mem
  cases settled : settings? workspace command with
  | none => simp [settled] at mem
  | some settings =>
    rw [settled] at mem
    obtain ⟨path, listed, rfl⟩ := List.mem_map.1 mem
    exact ⟨settings, rfl, path, listed, rfl⟩

theorem manifests_eq (settled : settings? workspace command = some settings) :
    manifests workspace command = settings.manifests := by
  rw [manifests, settled]
  rfl

theorem length_checks : (checks workspace command).length = (manifests workspace command).length := by
  rw [checks, manifests]
  cases settings? workspace command <;> simp

theorem silent_of_mem_checks :
    ∀ check ∈ checks workspace command, ∀ error, check.value = .error error → check.events = [] := by
  intro check mem error failed
  obtain ⟨settings, -, path, -, rfl⟩ := exists_of_mem_checks mem
  exact Workspace.events_report_of_error failed

/-- Whatever a check tells while it goes on is what the check of one manifest tells. -/
theorem exists_of_mem_events {event : Log.Event}
    (mem : event ∈ (schedule.run (checks workspace command)).events) :
    ∃ settings, settings? workspace command = some settings ∧
      ∃ path ∈ settings.manifests, event ∈ ((Checker.mk path).run workspace).events := by
  obtain ⟨ended, among, perm, -⟩ := Schedule.events_run schedule (checks workspace command)
  obtain ⟨check, going, own⟩ := List.mem_flatMap.1 (perm.subset mem)
  obtain ⟨settings, settled, path, listed, rfl⟩ := exists_of_mem_checks (among.subset going)
  rw [Workspace.events_report] at own
  exact ⟨settings, settled, path, listed, own⟩

/-- Where at most one manifest fails, the schedule decides no value. -/
theorem value_run_checks (one : OneFailsAtMost workspace command) (schedule other : Schedule) :
    (schedule.run (checks workspace command)).value = (other.run (checks workspace command)).value := by
  refine Schedule.value_run_eq ?_ schedule other
  intro check mem another memOther error met fails failsOther
  obtain ⟨settings, settled, path, listed, rfl⟩ := exists_of_mem_checks mem
  obtain ⟨others, settledOther, place, listedOther, rfl⟩ := exists_of_mem_checks memOther
  obtain rfl := Option.some.inj (settled.symm.trans settledOther)
  rw [Workspace.value_report, Workspace.reportOn_eq_error_iff] at fails failsOther
  obtain ⟨rfl, fault⟩ := fails
  obtain ⟨rfl, faultOther⟩ := failsOther
  have unread {path : Path} {fault : Fault} (failed : workspace.readText path = .error fault) :
      ¬ ∃ text, workspace.HoldsText path text := by
    rintro ⟨text, holds⟩
    rw [Workspace.readText_eq_ok_iff.2 holds] at failed
    cases failed
  rw [OneFailsAtMost, manifests_eq settled] at one
  have path := one _ listed _ listedOther (unread fault) (unread faultOther)
  rw [path, faultOther] at fault
  obtain ⟨at_, here⟩ := error
  obtain ⟨place, there⟩ := met
  simp only [Except.error.injEq] at fault path
  rw [path, fault]

/-- A command that succeeds has no check that fails. -/
theorem exists_mapM_checks_eq_ok {verbosity : Nat}
    (done : (perform workspace terminals schedule ⟨verbosity, command⟩).exitCode = 0) :
    ∃ values, (checks workspace command).mapM (·.value) = .ok values := by
  cases command with
  | version => exact ⟨[], rfl⟩
  | rules => exact ⟨[], rfl⟩
  | check options =>
    rw [checks, settings?]
    cases named : Report.Format.ofName? (Settings.resolve workspace options).value.output with
    | none => exact ⟨[], rfl⟩
    | some format =>
      generalize settled : (Settings.resolve workspace options).value = settings at named ⊢
      cases came : (workspace.reports schedule settings.projectRoot settings.manifests).value with
      | ok reports => exact ⟨reports, Schedule.value_run_eq_ok_iff.1 came⟩
      | error error =>
        have failed : (checkWith workspace terminals schedule settings).value = .error error.message := by
          rw [checkWith, named]
          dsimp only [Logged.value_bind, Workspace.lint]
          rw [came]
          rfl
        simp only [perform, check, Logged.value_bind, settled, failed] at done
        cases done

/-- A command succeeds, or fails with an error message. -/
theorem perform_cases (request : CommandLine.Request) :
    (∃ output log, perform workspace terminals schedule request = .success output log) ∨
      ∃ text log, perform workspace terminals schedule request =
        .failure (errorMessage terminals text) log := by
  obtain ⟨verbosity, command⟩ := request
  cases command with
  | version => exact .inl ⟨_, _, rfl⟩
  | rules => exact .inl ⟨_, _, rfl⟩
  | check options =>
    simp only [perform, check]
    split
    · exact .inl ⟨_, _, rfl⟩
    · exact .inr ⟨_, _, rfl⟩

/-- A command gives no error message if it succeeds, and one if it fails. -/
theorem length_errors (request : CommandLine.Request) :
    ((perform workspace terminals schedule request).errors terminals).length =
      if (perform workspace terminals schedule request).exitCode = 0 then 0 else 1 := by
  obtain ⟨output, log, ended⟩ | ⟨text, log, ended⟩ := @perform_cases workspace terminals schedule request
  · rw [ended, Outcome.errors_success]
    rfl
  · rw [ended, Outcome.errors_failure]
    rfl

/-- Where a command succeeds, it tells the same under every schedule, save for the order, and what it
tells of each manifest in order. -/
theorem told_perm {verbosity : Nat}
    (done : (perform workspace terminals schedule ⟨verbosity, command⟩).exitCode = 0) :
    (told workspace terminals schedule command).Perm (told workspace terminals other command) ∧
      ∀ path ∈ manifests workspace command,
        ((Checker.mk path).run workspace).events.Sublist (told workspace terminals schedule command) ∧
          ((Checker.mk path).run workspace).events.Sublist (told workspace terminals other command) := by
  obtain ⟨values, succeeding⟩ := exists_mapM_checks_eq_ok done
  obtain ⟨perm, inOrder⟩ := Schedule.events_run_of_succeeding succeeding schedule
  obtain ⟨permOther, inOrderOther⟩ := Schedule.events_run_of_succeeding succeeding other
  rw [told_eq, told_eq]
  refine ⟨(perm.trans permOther.symm).append_left _, ?_⟩
  intro path mem
  have checked : ∃ check ∈ checks workspace command,
      check.events = ((Checker.mk path).run workspace).events := by
    rw [manifests] at mem
    rw [checks]
    cases settled : settings? workspace command with
    | none => simp [settled] at mem
    | some settings =>
      rw [settled] at mem
      exact ⟨_, List.mem_map_of_mem mem, Workspace.events_report path⟩
  obtain ⟨check, among, own⟩ := checked
  rw [← own]
  exact ⟨(inOrder check among).trans (List.sublist_append_right _ _),
    (inOrderOther check among).trans (List.sublist_append_right _ _)⟩

end

end ManifestLint.Program
