import ManifestLint.Program
import ManifestLint.Proofs.Runs.AllOrNothing

/-!
# Outcomes of a check

What a run of the command `check` comes to, by what its settings say and by what its manifests hold.
Main statement: `run_check`.

* `Warns`, `warns_resolve`: settling a run logs warnings and nothing else;
* `Outcome.errors`: the error messages among all that a run writes besides its output. No line of the
  log is one (`not_marked_text`);
* `check_of_unknown`, `check_of_missing`, `check_of_readable`: the three ways in which a check ends;
* `perform_scheduled`: the schedule decides neither how a command ends nor what it prints.
-/

namespace ManifestLint

/-! ## What settling a run logs -/

namespace Logged

variable {α β : Type}

/-- All that is logged is a warning. -/
def Warns (logged : Logged α) : Prop := ∀ event ∈ logged.events, event.level = .warn

theorem warns_pure (a : α) : Warns (pure a) := by simp [Warns]

theorem warns_log {event : Log.Event} (h : event.level = .warn) : Warns (log event) := by
  simpa [Warns, log] using h

theorem Warns.bind {first : Logged α} {next : α → Logged β} (hf : first.Warns)
    (hn : (next first.value).Warns) : (first >>= next).Warns := by
  intro event mem
  rw [events_bind] at mem
  obtain mem | mem := List.mem_append.1 mem
  · exact hf event mem
  · exact hn event mem

theorem warns_mapM {f : α → Logged β} (h : ∀ a, (f a).Warns) (inputs : List α) :
    (inputs.mapM f).Warns := by
  induction inputs with
  | nil => exact warns_pure []
  | cons a rest ih =>
    rw [List.mapM_cons]
    exact (h a).bind (ih.bind (warns_pure _))

end Logged

open Logged

theorem Workspace.warns_loadConfig (workspace : Workspace) (root : Path) :
    (workspace.loadConfig root).Warns := by
  unfold loadConfig
  split
  · exact warns_pure none
  · dsimp only
    split
    · exact (warns_log rfl).bind (warns_pure none)
    · split
      · exact warns_pure _
      · exact (warns_log rfl).bind (warns_pure none)

namespace Settings

variable (workspace : Workspace)

theorem warns_expandEntry (root : Path) (entry : String) : (expandEntry workspace root entry).Warns := by
  unfold expandEntry
  dsimp only
  split
  · exact (warns_log rfl).bind (warns_pure _)
  · split <;> exact warns_pure _

theorem warns_manifestPaths (root start : Path) (asked : List String)
    (configured : Option (List String)) :
    (manifestPaths workspace root start asked configured).Warns := by
  unfold manifestPaths
  split
  · split
    · exact warns_pure _
    · exact warns_pure _
    · exact (warns_mapM (warns_expandEntry workspace root) _).bind (warns_pure _)
  · exact warns_pure _

theorem warns_resolveIn (directory : Path) (options : CommandLine.CheckOptions) :
    (resolveIn workspace directory options).Warns :=
  (workspace.warns_loadConfig _).bind ((warns_manifestPaths workspace _ _ _ _).bind (warns_pure _))

theorem warns_resolve (options : CommandLine.CheckOptions) : (resolve workspace options).Warns := by
  unfold resolve
  split
  · exact warns_resolveIn workspace _ options
  · exact (warns_log rfl).bind (warns_resolveIn workspace _ options)

end Settings

theorem Log.shown_warns {α : Type} {logged : Logged α} (h : logged.Warns) (verbosity : Nat) :
    shown verbosity logged.events = logged.events :=
  List.filter_eq_self.2 fun event mem => by rw [h event mem]; rfl

/-! ## Error messages -/

namespace Program

/-- The word before an error message. -/
def errorMark (terminals : Terminals) : String :=
  if terminals.messages then Style.bold.apply (Style.red.apply "error:") else "error:"

theorem errorMessage_eq (terminals : Terminals) (text : String) :
    errorMessage terminals text = errorMark terminals ++ " " ++ text ++ "\n" := rfl

/-- Whether a message is marked as an error. -/
def marked (terminals : Terminals) (message : String) : Bool :=
  (errorMark terminals).toList.isPrefixOf message.toList

theorem marked_errorMessage (terminals : Terminals) (text : String) :
    marked terminals (errorMessage terminals text) = true := by
  rw [marked, List.isPrefixOf_iff_prefix, errorMessage_eq, String.append_assoc, String.append_assoc,
    String.toList_append]
  exact List.prefix_append _ _

/-- What is marked begins with the mark or with the control sequence before it. -/
theorem head?_of_marked {terminals : Terminals} {message : String}
    (h : marked terminals message = true) :
    message.toList.head? = some 'e' ∨ message.toList.head? = some '\x1b' := by
  obtain ⟨rest, he⟩ := List.isPrefixOf_iff_prefix.1 h
  rw [← he]
  obtain ⟨output, _ | _⟩ := terminals
  · left; simp [errorMark]
  · right; simp [errorMark, Style.apply, Style.controlSequence]

/-- The line of an event begins with the word for its level, so it is not marked. -/
theorem not_marked_text (terminals : Terminals) (event : Log.Event) :
    marked terminals event.text ≠ true := by
  intro h
  have first := head?_of_marked h
  unfold Log.Event.text at first
  cases level : event.level <;> simp [level, Log.Level.name] at first

end Program

namespace Outcome

open Program

/-- The error messages among all that a run writes besides its output. -/
def errors (terminals : Terminals) (outcome : Outcome) : List String :=
  (outcome.log.map (·.text) ++ [outcome.message]).filter (marked terminals)

theorem filter_marked_log (terminals : Terminals) (log : List Log.Event) :
    (log.map (·.text)).filter (marked terminals) = [] := by
  rw [List.filter_eq_nil_iff]
  intro message mem
  obtain ⟨event, -, rfl⟩ := List.mem_map.1 mem
  exact not_marked_text terminals event

theorem errors_failure (terminals : Terminals) (text : String) (log : List Log.Event) :
    (failure (errorMessage terminals text) log).errors terminals = [errorMessage terminals text] := by
  rw [errors, failure, List.filter_append, filter_marked_log, List.nil_append,
    List.filter_singleton, marked_errorMessage, cond_true]

theorem errors_success (terminals : Terminals) (output : String) (log : List Log.Event) :
    (success output log).errors terminals = [] := by
  have unmarked : marked terminals "" ≠ true := by
    intro h
    simpa using head?_of_marked h
  rw [errors, success, List.filter_append, filter_marked_log, List.nil_append, List.filter_eq_nil_iff]
  simpa using unmarked

end Outcome

/-! ## The ways in which a check ends -/

namespace Report.Format

theorem ofName?_eq_none {name : String} (human : name ≠ "human") (json : name ≠ "json") :
    ofName? name = none := by
  unfold ofName?
  split
  · exact absurd rfl human
  · exact absurd rfl json
  · rfl

/-- A format that there is, and how reports are written in it without colour. -/
theorem exists_ofName?_eq_some {name : String} (known : name = "human" ∨ name = "json") :
    ∃ format, ofName? name = some format ∧ ∀ report : Report,
      report.render false format =
        if name = "json" then report.toDocument else report.toHuman false := by
  obtain rfl | rfl := known
  · exact ⟨.human, rfl, fun report => rfl⟩
  · exact ⟨.json, rfl, fun report => rfl⟩

end Report.Format

namespace Program

section

variable {workspace : Workspace} {terminals : Terminals} {schedule : Schedule}
  {options : CommandLine.CheckOptions} {settings : Settings}
  (settled : (Settings.resolve workspace options).value = settings) (verbosity : Nat)
include settled

/-- A format that there is not ends a check before it has done anything. -/
theorem check_of_unknown (unknown : Report.Format.ofName? settings.output = none) :
    check workspace terminals schedule verbosity options =
      .failure (errorMessage terminals (unknownOutput settings.output))
        (Settings.resolve workspace options).events := by
  simp [check, checkWith, settled, unknown,
    Log.shown_warns (Settings.warns_resolve workspace options)]

/-- A manifest without a text fails a check, by the path of one of those. -/
theorem check_of_missing (known : settings.output = "human" ∨ settings.output = "json")
    (missing : ∃ path ∈ settings.manifests, ¬ ∃ text, workspace.HoldsText path text) :
    ∃ (log : List Log.Event) (error : LoadError), error.path ∈ settings.manifests ∧
      workspace.readText error.path = .error error.fault ∧
      (¬ ∃ text, workspace.HoldsText error.path text) ∧
      check workspace terminals schedule verbosity options =
        .failure (errorMessage terminals error.message) log := by
  obtain ⟨format, named, -⟩ := Report.Format.exists_ofName?_eq_some known
  have failing : ∃ error,
      (workspace.lint schedule settings.projectRoot settings.manifests).value = .error error :=
    Workspace.exists_lint_eq_error_iff.2 missing
  obtain ⟨error, failed⟩ := failing
  obtain ⟨mem, fault, unread⟩ := Workspace.lint_eq_error failed
  exact ⟨_, error, mem, fault, unread, by simp [check, checkWith, settled, named, failed]; rfl⟩

/-- A check whose manifests all hold a text prints the report on them. -/
theorem check_of_readable (known : settings.output = "human" ∨ settings.output = "json")
    (readable : ∀ path ∈ settings.manifests, ∃ text, workspace.HoldsText path text)
    (piped : terminals.output = false) :
    ∃ log report,
      (workspace.lint schedule settings.projectRoot settings.manifests).value = .ok report ∧
      List.Forall₂ (workspace.Describes settings.projectRoot) settings.manifests report.manifests ∧
      check workspace terminals schedule verbosity options =
        .success (if settings.output = "json" then report.toDocument else report.toHuman false)
          log := by
  obtain ⟨format, named, written⟩ := Report.Format.exists_ofName?_eq_some known
  have succeeding : ∃ report,
      (workspace.lint schedule settings.projectRoot settings.manifests).value = .ok report :=
    Workspace.exists_lint_eq_ok_iff.2 readable
  obtain ⟨report, succeeded⟩ := succeeding
  obtain ⟨manifests, described, rfl⟩ := Workspace.lint_eq_ok_iff.1 succeeded
  exact ⟨_, _, succeeded, described, by
    simp [check, checkWith, settled, named, succeeded, piped, written]; rfl⟩

end

/-- What a check has to print, if it succeeds. -/
theorem toOption_checkWith (workspace : Workspace) (terminals : Terminals) (schedule : Schedule)
    (settings : Settings) :
    (checkWith workspace terminals schedule settings).value.toOption =
      (Report.Format.ofName? settings.output).bind fun format =>
        (workspace.lint schedule settings.projectRoot settings.manifests).value.toOption.map fun report =>
          report.render (settings.color && terminals.output) format := by
  unfold checkWith
  cases Report.Format.ofName? settings.output with
  | none => rfl
  | some format =>
    dsimp only [Logged.value_bind, Option.bind_some]
    cases (workspace.lint schedule settings.projectRoot settings.manifests).value <;> rfl

/-- The exit code and the output of a check, by what there is to print if it succeeds. -/
theorem check_of_printed (workspace : Workspace) (terminals : Terminals) (schedule : Schedule)
    (verbosity : Nat) {options : CommandLine.CheckOptions} {printed : Option String}
    (h : (checkWith workspace terminals schedule (Settings.resolve workspace options).value).value.toOption =
      printed) :
    (check workspace terminals schedule verbosity options).exitCode =
        (if printed.isSome then 0 else 2) ∧
      (check workspace terminals schedule verbosity options).output = printed.getD "" := by
  unfold check
  dsimp only [Logged.value_bind]
  subst h
  cases (checkWith workspace terminals schedule (Settings.resolve workspace options).value).value <;>
    exact ⟨rfl, rfl⟩

/-- The schedule decides neither how a command ends nor what it prints. -/
theorem perform_scheduled (workspace : Workspace) (terminals : Terminals) (schedule other : Schedule)
    (request : CommandLine.Request) :
    (perform workspace terminals schedule request).exitCode =
        (perform workspace terminals other request).exitCode ∧
      (perform workspace terminals schedule request).output =
        (perform workspace terminals other request).output := by
  obtain ⟨verbosity, command⟩ := request
  cases command with
  | version => exact ⟨rfl, rfl⟩
  | rules => exact ⟨rfl, rfl⟩
  | check options =>
    have printed :
        (checkWith workspace terminals schedule (Settings.resolve workspace options).value).value.toOption =
          (checkWith workspace terminals other
            (Settings.resolve workspace options).value).value.toOption := by
      simp only [toOption_checkWith, Workspace.toOption_lint]
    obtain ⟨code, output⟩ := check_of_printed workspace terminals schedule verbosity printed
    obtain ⟨otherCode, otherOutput⟩ := check_of_printed workspace terminals other verbosity rfl
    exact ⟨code.trans otherCode.symm, output.trans otherOutput.symm⟩

theorem run_scheduled (workspace : Workspace) (terminals : Terminals) (schedule other : Schedule)
    (arguments : List String) :
    (run workspace terminals schedule arguments).exitCode =
        (run workspace terminals other arguments).exitCode ∧
      (run workspace terminals schedule arguments).output =
        (run workspace terminals other arguments).output := by
  unfold run
  cases CommandLine.parse arguments with
  | error refusal => exact ⟨rfl, rfl⟩
  | ok request => exact perform_scheduled workspace terminals schedule other request

/-- **What a check comes to,** where its output goes to no terminal, under every schedule. A format that
there is not fails the run, which then has logged warnings only and is the same for every tree that
settles it so. Else a manifest without a text fails it, by the path of one of those. Else it succeeds,
and prints the report on the manifests in their order and in the format asked for. A run that fails
prints nothing and gives one error message, and a run that succeeds gives none. -/
theorem run_check (workspace : Workspace) (messages : Bool) (schedule : Schedule) {arguments : List String}
    {verbosity : Nat} {options : CommandLine.CheckOptions}
    (parsed : CommandLine.parse arguments = .ok ⟨verbosity, .check options⟩) :
    let terminals : Terminals := ⟨false, messages⟩
    let settings := (Settings.resolve workspace options).value
    let outcome := run workspace terminals schedule arguments
    (settings.output ≠ "human" ∧ settings.output ≠ "json" →
      outcome.exitCode = 2 ∧ outcome.output = "" ∧
        outcome.errors terminals = [errorMessage terminals
          ("unknown output mode '" ++ settings.output ++ "' (expected human|json)")] ∧
        outcome.log = (Settings.resolve workspace options).events ∧
        (∀ event ∈ outcome.log, event.level = .warn) ∧
        ∀ (other : Workspace) (another : Schedule),
          Settings.resolve other options = Settings.resolve workspace options →
            run other terminals another arguments = outcome) ∧
    (settings.output = "human" ∨ settings.output = "json" →
      (∃ path ∈ settings.manifests, ¬ ∃ text, workspace.HoldsText path text) →
      outcome.exitCode = 2 ∧ outcome.output = "" ∧
        ∃ path ∈ settings.manifests, (¬ ∃ text, workspace.HoldsText path text) ∧
          ∃ fault, workspace.readText path = .error fault ∧
            outcome.errors terminals = [errorMessage terminals
              ("Error reading config file " ++ path.text ++ ": " ++ fault.message)]) ∧
    (settings.output = "human" ∨ settings.output = "json" →
      (∀ path ∈ settings.manifests, ∃ text, workspace.HoldsText path text) →
      outcome.exitCode = 0 ∧ outcome.errors terminals = [] ∧
        ∃ report, (workspace.lint schedule settings.projectRoot settings.manifests).value = .ok report ∧
          List.Forall₂ (workspace.Describes settings.projectRoot) settings.manifests
            report.manifests ∧
          outcome.output =
            if settings.output = "json" then report.toDocument else report.toHuman false) := by
  generalize settled : (Settings.resolve workspace options).value = settings
  dsimp only
  generalize here : (⟨false, messages⟩ : Terminals) = terminals
  have piped : terminals.output = false := by rw [← here]
  -- Of any tree, since nothing but the settings decides a check in a format that there is not.
  have checked (other : Workspace) (another : Schedule) :
      run other terminals another arguments = check other terminals another verbosity options := by
    simp only [run, parsed, perform]
  refine ⟨?_, ?_, ?_⟩
  · rintro ⟨human, json⟩
    have unknown := Report.Format.ofName?_eq_none human json
    rw [checked workspace schedule, check_of_unknown settled verbosity unknown]
    refine ⟨rfl, rfl, ?_, rfl, Settings.warns_resolve workspace options,
      fun other another same => ?_⟩
    · exact Outcome.errors_failure terminals (unknownOutput settings.output) _
    · rw [checked other another, check_of_unknown (same ▸ settled) verbosity unknown, same]
  · intro known missing
    obtain ⟨log, error, mem, fault, unread, ended⟩ :=
      check_of_missing settled verbosity known missing
    rw [checked workspace schedule, ended]
    exact ⟨rfl, rfl, error.path, mem, unread, error.fault, fault,
      Outcome.errors_failure terminals error.message log⟩
  · intro known readable
    obtain ⟨log, report, succeeded, described, ended⟩ :=
      check_of_readable settled verbosity known readable piped
    rw [checked workspace schedule, ended, Outcome.errors_success]
    exact ⟨rfl, rfl, report, succeeded, described, rfl⟩

/-- A check in a format that there is not, one with a manifest that is missing behind one that is
there, and one that prints its report. -/
theorem run_check_three :
    let workspace : Workspace := ⟨.directory [("here", .file "ADD x".toUTF8)], [], 0⟩
    let terminals : Terminals := ⟨false, false⟩
    let schedule : Schedule := ⟨[1, 0]⟩
    let unknown := run workspace terminals schedule ["check", "--output", "xml", "gone"]
    let missing := run workspace terminals schedule ["check", "--output", "human", "here", "gone"]
    let readable := run workspace terminals schedule ["check", "--output", "json", "here"]
    (unknown.exitCode = 2 ∧ unknown.output = "" ∧
      unknown.errors terminals = ["error: unknown output mode 'xml' (expected human|json)\n"]) ∧
    (missing.exitCode = 2 ∧ missing.output = "" ∧
      missing.errors terminals =
        ["error: Error reading config file gone: No such file or directory (os error 2)\n"]) ∧
    readable.exitCode = 0 ∧ readable.errors terminals = [] ∧
      readable.output = (Report.ofManifests
        [⟨"here", [Rule.NonRootUser.noUser, Rule.AddOrCopy.added 1]⟩]).toDocument := by
  intro workspace terminals schedule unknown missing readable
  have held : workspace.HoldsText ⟨"here"⟩ "ADD x" := rfl
  have absent : workspace.readText ⟨"gone"⟩ = .error .notFound := rfl
  refine ⟨?_, ?_, ?_⟩
  · have parsed : CommandLine.parse ["check", "--output", "xml", "gone"] =
        .ok ⟨0, .check ⟨["gone"], none, some "xml", false⟩⟩ := rfl
    obtain ⟨code, output, errors, -⟩ :=
      (run_check workspace false schedule parsed).1 ⟨by decide, by decide⟩
    exact ⟨code, output, errors⟩
  · have parsed : CommandLine.parse ["check", "--output", "human", "here", "gone"] =
        .ok ⟨0, .check ⟨["here", "gone"], none, some "human", false⟩⟩ := rfl
    have bare : ¬ ∃ text, workspace.HoldsText ⟨"gone"⟩ text := by
      rintro ⟨text, holds⟩
      rw [← Workspace.readText_eq_ok_iff, absent] at holds
      contradiction
    obtain ⟨code, output, path, mem, unheld, fault, met, errors⟩ :=
      (run_check workspace false schedule parsed).2.1 (.inl rfl) ⟨⟨"gone"⟩, .tail _ (.head _), bare⟩
    have last : path = ⟨"here"⟩ ∨ path = ⟨"gone"⟩ := by
      change path ∈ [_, _] at mem
      simpa using mem
    obtain rfl | rfl := last
    · exact absurd ⟨_, held⟩ unheld
    · rw [absent, Except.error.injEq] at met
      subst met
      exact ⟨code, output, errors⟩
  · have parsed : CommandLine.parse ["check", "--output", "json", "here"] =
        .ok ⟨0, .check ⟨["here"], none, some "json", false⟩⟩ := rfl
    have lines : Text.splitLines "ADD x" = ["ADD x"] := by decide +kernel
    have found : Rule.checkAll ["ADD x"] =
        [Rule.NonRootUser.noUser, Rule.AddOrCopy.added 1] := by decide
    have root : (Settings.resolve workspace ⟨["here"], none, some "json", false⟩).value.projectRoot =
        ⟨"/"⟩ := by decide +kernel
    have expected : (workspace.lint schedule ⟨"/"⟩ [⟨"here"⟩]).value = .ok (Report.ofManifests
        [⟨"here", [Rule.NonRootUser.noUser, Rule.AddOrCopy.added 1]⟩]) :=
      Workspace.lint_eq_ok_iff.2 ⟨_, .cons ⟨_, held, by rw [lines, found]; rfl⟩ .nil, rfl⟩
    obtain ⟨code, errors, report, succeeded, -, output⟩ :=
      (run_check workspace false schedule parsed).2.2 (.inr rfl) fun path mem => by
        obtain rfl : path = ⟨"here"⟩ := List.mem_singleton.1 mem
        exact ⟨_, held⟩
    rw [root] at succeeded
    obtain rfl := Except.ok.inj (succeeded.symm.trans expected)
    exact ⟨code, errors, output⟩

end Program

end ManifestLint
