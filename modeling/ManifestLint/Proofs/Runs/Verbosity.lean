import ManifestLint.Proofs.Runs.Commands
import ManifestLint.Proofs.Runs.ErrorLines

/-!
# How much is told

A run goes on alike however much of its log is shown, and whatever the schedule. Main statement:
`run_differs_in_log_only`.

* `enabled`: the levels that are shown at a verbosity, and `shown_eq`, `filter_shown`: a shown log is
  the whole log at those levels, and less can be had from more;
* `errorLines_perform`: where no path bears an error mark, the lines that are marked as errors hang on
  the message and on warnings alone;
* `perform_ends_alike`, `perform_fails_alike`: what two runs of a command have in common;
* `run_differs_beyond_log`: runs that do not differ in the log alone.
-/

namespace ManifestLint

namespace Log

/-- The levels that are shown at a verbosity. -/
def enabled : Nat → List Level
  | 0 => [.warn]
  | 1 => [.warn, .info]
  | _ + 2 => [.warn, .info, .debug]

theorem shownAt_iff {verbosity : Nat} {level : Level} :
    level.shownAt verbosity = true ↔ level ∈ enabled verbosity := by
  match verbosity with
  | 0 | 1 => cases level <;> decide
  | _ + 2 => cases level <;> simp [enabled, Level.shownAt]

theorem enabled_mono {verbosity more : Nat} (le : verbosity ≤ more) :
    enabled verbosity ⊆ enabled more := by
  intro level mem
  rw [← shownAt_iff] at mem ⊢
  cases level with
  | warn => rfl
  | info =>
    simp only [Level.shownAt, decide_eq_true_eq] at mem ⊢
    omega
  | debug =>
    simp only [Level.shownAt, decide_eq_true_eq] at mem ⊢
    omega

theorem shown_eq (verbosity : Nat) (events : List Event) :
    shown verbosity events = events.filter fun event => event.level ∈ enabled verbosity := by
  refine List.filter_congr fun event _ => ?_
  rw [Bool.eq_iff_iff, shownAt_iff, decide_eq_true_eq]

/-- What is shown at a verbosity can be had from what is shown at a higher one. -/
theorem filter_shown {verbosity more : Nat} (le : verbosity ≤ more) (events : List Event) :
    (shown more events).filter (fun event => event.level ∈ enabled verbosity) =
      shown verbosity events := by
  rw [shown_eq, shown_eq, List.filter_filter]
  refine List.filter_congr fun event _ => ?_
  rw [Bool.and_eq_left_iff_imp]
  intro mem
  exact decide_eq_true (enabled_mono le (of_decide_eq_true mem))

/-- From two on nothing is left out. -/
theorem shown_of_two_le {verbosity : Nat} (le : 2 ≤ verbosity) (events : List Event) :
    shown verbosity events = events := by
  refine List.filter_eq_self.2 fun event _ => ?_
  cases event.level with
  | warn => rfl
  | info => exact decide_eq_true (by omega)
  | debug => exact decide_eq_true le

end Log

/-- No line of the log is an error message. -/
theorem Outcome.errors_eq (terminals : Terminals) (outcome : Outcome) :
    outcome.errors terminals = [outcome.message].filter (Program.marked terminals) := by
  rw [errors, List.filter_append, filter_marked_log, List.nil_append]

namespace Program

open CommandLine (Command parse)

variable (workspace : Workspace) (terminals : Terminals)

/-- In no path that a command shows while it checks manifests, a line feed stands with the error mark
right behind it. -/
def ShowsNoMark (command : Command) : Prop :=
  ∀ settings, settings? workspace command = some settings →
    ∀ path ∈ settings.projectRoot :: settings.manifests, ¬ BearsMark terminals path.text.toList

section

variable {workspace terminals} {schedule other : Schedule} {command : Command}

/-! ## What is shown of a command -/

/-- Below two, what is shown of a command is told before its manifests are checked. -/
theorem shown_told {verbosity : Nat} (low : verbosity ≤ 1) :
    Log.shown verbosity (told workspace terminals schedule command) =
      Log.shown verbosity (toldFirst workspace command) := by
  rw [told_eq, Log.shown, List.filter_append]
  refine List.append_right_eq_self.2 (List.filter_eq_nil_iff.2 ?_)
  intro event mem
  obtain ⟨settings, -, path, -, own⟩ := exists_of_mem_events mem
  rw [level_of_mem_events_run own]
  simp only [Log.Level.shownAt, decide_eq_true_eq]
  omega

/-! ## Marked lines of a log -/

/-- What is told at other levels than the lowest has no marked line. -/
theorem level_or_markedLines (clean : ShowsNoMark workspace terminals command) :
    ∀ event ∈ told workspace terminals schedule command,
      event.level = .warn ∨ markedLines terminals event.text = [] := by
  intro event mem
  rw [told_eq, toldFirst] at mem
  obtain (settling | starting) | going := by simpa only [List.mem_append] using mem
  · left
    cases command with
    | version => cases settling
    | rules => cases settling
    | check options => exact Settings.warns_resolve workspace options event settling
  · right
    rw [Option.mem_toList, Option.map_eq_some_iff] at starting
    obtain ⟨settings, settled, rfl⟩ := starting
    exact markedLines_checking (clean settings settled _ List.mem_cons_self) _
  · right
    obtain ⟨settings, settled, path, listed, own⟩ := exists_of_mem_events going
    exact markedLines_of_mem_events_run own (clean settings settled path (List.mem_cons_of_mem _ listed))

/-- So the marked lines of a log do not hang on the verbosity. -/
theorem markedLines_shown {events : List Log.Event}
    (unmarked : ∀ event ∈ events, event.level = .warn ∨ markedLines terminals event.text = [])
    (verbosity : Nat) :
    (Log.shown verbosity events).flatMap (fun event => markedLines terminals event.text) =
      (Log.shown 0 events).flatMap (fun event => markedLines terminals event.text) := by
  induction events with
  | nil => rfl
  | cons event rest ih =>
    obtain ⟨first, later⟩ := List.forall_mem_cons.1 unmarked
    obtain warns | silent := first
    · have always (verbosity : Nat) : Log.shown verbosity (event :: rest) =
          event :: Log.shown verbosity rest :=
        List.filter_cons_of_pos (by rw [warns]; rfl)
      rw [always, always, List.flatMap_cons, List.flatMap_cons, ih later]
    · have either (verbosity : Nat) :
          (Log.shown verbosity (event :: rest)).flatMap (fun event => markedLines terminals event.text) =
            (Log.shown verbosity rest).flatMap (fun event => markedLines terminals event.text) := by
        rw [Log.shown, List.filter_cons]
        split
        · rw [List.flatMap_cons, silent, List.nil_append]
          rfl
        · rfl
      rw [either, either, ih later]

/-- The marked lines of a run, by what it tells before its manifests are checked. -/
theorem errorLines_perform (clean : ShowsNoMark workspace terminals command) (verbosity : Nat) :
    (perform workspace terminals schedule ⟨verbosity, command⟩).errorLines terminals =
      (Log.shown 0 (toldFirst workspace command)).flatMap
          (fun event => markedLines terminals event.text) ++
        markedLines terminals (perform workspace terminals schedule ⟨verbosity, command⟩).message := by
  have shown : (perform workspace terminals schedule ⟨verbosity, command⟩).log =
      Log.shown verbosity (told workspace terminals schedule command) :=
    congrArg Outcome.log (perform_eq verbosity verbosity rfl)
  rw [Outcome.errorLines_eq, shown, markedLines_shown (level_or_markedLines clean) verbosity,
    shown_told (Nat.zero_le 1)]

/-! ## A command performed twice -/

/-- A command ends in the same way whatever is shown of it, and whatever the schedule. -/
theorem perform_ends_alike (verbosity more : Nat) :
    (perform workspace terminals schedule ⟨verbosity, command⟩).exitCode =
        (perform workspace terminals other ⟨more, command⟩).exitCode ∧
      (perform workspace terminals schedule ⟨verbosity, command⟩).output =
        (perform workspace terminals other ⟨more, command⟩).output ∧
      ((perform workspace terminals schedule ⟨verbosity, command⟩).errors terminals).length =
        ((perform workspace terminals other ⟨more, command⟩).errors terminals).length := by
  obtain ⟨code, output⟩ := perform_scheduled workspace terminals schedule other ⟨more, command⟩
  have shown := @perform_eq workspace terminals schedule schedule command verbosity more rfl
  have codes : (perform workspace terminals schedule ⟨verbosity, command⟩).exitCode =
      (perform workspace terminals other ⟨more, command⟩).exitCode :=
    (congrArg Outcome.exitCode shown).trans code
  refine ⟨codes, (congrArg Outcome.output shown).trans output, ?_⟩
  rw [length_errors, length_errors, codes]

/-- Where its checks come to one value, a command gives one message, and the same lines are marked as
errors unless a path bears a mark. -/
theorem perform_fails_alike (verbosity more : Nat)
    (same : (schedule.run (checks workspace command)).value =
      (other.run (checks workspace command)).value) :
    (perform workspace terminals schedule ⟨verbosity, command⟩).message =
        (perform workspace terminals other ⟨more, command⟩).message ∧
      (perform workspace terminals schedule ⟨verbosity, command⟩).errors terminals =
        (perform workspace terminals other ⟨more, command⟩).errors terminals ∧
      (ShowsNoMark workspace terminals command →
        (perform workspace terminals schedule ⟨verbosity, command⟩).errorLines terminals =
          (perform workspace terminals other ⟨more, command⟩).errorLines terminals) := by
  have shown := @perform_eq workspace terminals schedule other command verbosity more same
  have message : (perform workspace terminals schedule ⟨verbosity, command⟩).message =
      (perform workspace terminals other ⟨more, command⟩).message := by rw [shown]
  refine ⟨message, ?_, ?_⟩
  · rw [Outcome.errors_eq, Outcome.errors_eq, message]
  · intro clean
    rw [errorLines_perform clean, errorLines_perform clean, message]

end

/-- **Verbosity shows more of a run and changes nothing in it.** Two argument lists that ask for one
command, and differ in the verbosity alone, have one exit code and one output, and as many error
messages, whatever the schedules of the two runs. The message is the same where the schedules are, or
where at most one manifest fails, and so are the lines that are marked as errors, unless a path bears
such a mark. At the levels below two that both runs show, their logs are the same. The whole log of the less
verbose run is that of the other at the levels that its own verbosity enables, as long as the schedules
are the same, or at most one manifest is checked, or nothing is shown that checks tell. From two on the
log is all that the command tells. Such runs are one and the same under one schedule or with one manifest;
under two schedules they still tell the same if they succeed, save for the order, and each manifest's
events in order. -/
theorem run_differs_in_log_only {arguments others : List String} {verbosity more : Nat}
    {command : Command} (parsed : parse arguments = .ok ⟨verbosity, command⟩)
    (parsedOther : parse others = .ok ⟨more, command⟩) (schedule another : Schedule) :
    let outcome := run workspace terminals schedule arguments
    let other := run workspace terminals another others
    let paths := manifests workspace command
    (outcome.exitCode = other.exitCode ∧ outcome.output = other.output ∧
      (outcome.errors terminals).length = (other.errors terminals).length) ∧
    (schedule = another ∨ OneFailsAtMost workspace command →
      outcome.message = other.message ∧ outcome.errors terminals = other.errors terminals ∧
        (ShowsNoMark workspace terminals command →
          outcome.errorLines terminals = other.errorLines terminals)) ∧
    (∀ low ≤ 1, low ≤ verbosity → low ≤ more →
      outcome.log.filter (fun event => event.level ∈ Log.enabled low) =
        other.log.filter fun event => event.level ∈ Log.enabled low) ∧
    (verbosity ≤ more → schedule = another ∨ paths.length ≤ 1 ∨ verbosity ≤ 1 →
      outcome.log = other.log.filter fun event => event.level ∈ Log.enabled verbosity) ∧
    (2 ≤ verbosity → outcome.log = told workspace terminals schedule command) ∧
    (2 ≤ verbosity → 2 ≤ more → schedule = another ∨ paths.length ≤ 1 → outcome = other) ∧
    (2 ≤ verbosity → 2 ≤ more → outcome.exitCode = 0 →
      outcome.log.Perm other.log ∧ ∀ path ∈ paths,
        ((Checker.mk path).run workspace).events.Sublist outcome.log ∧
          ((Checker.mk path).run workspace).events.Sublist other.log) := by
  intro outcome other paths
  have here : outcome = perform workspace terminals schedule ⟨verbosity, command⟩ := by
    simp only [outcome, run, parsed]
  have there : other = perform workspace terminals another ⟨more, command⟩ := by
    simp only [other, run, parsedOther]
  -- A single check leaves nothing for the schedule to decide, so then both runs go on alike.
  have alike : schedule = another ∨ paths.length ≤ 1 →
      schedule.run (checks workspace command) = another.run (checks workspace command) := by
    rintro (rfl | few)
    · rfl
    · exact Schedule.run_eq_of_length_le_one (length_checks.trans_le few) silent_of_mem_checks _ _
  have toldAlike (same : schedule.run (checks workspace command) = another.run (checks workspace command)) :
      told workspace terminals schedule command = told workspace terminals another command := by
    rw [told_eq, told_eq, same]
  rw [here, there]
  refine ⟨perform_ends_alike verbosity more, ?_, ?_, ?_, ?_, ?_, ?_⟩
  · intro settled
    apply perform_fails_alike verbosity more
    obtain rfl | one := settled
    · rfl
    · exact value_run_checks one schedule another
  · intro low below le leOther
    rw [log_perform, log_perform, Log.filter_shown le, Log.filter_shown leOther, shown_told below,
      shown_told below]
  · intro le settled
    rw [log_perform, log_perform, Log.filter_shown le]
    obtain same | few | low := settled
    · rw [same]
    · rw [toldAlike (alike (.inr few))]
    · rw [shown_told low, shown_told low]
  · intro full
    rw [log_perform, Log.shown_of_two_le full]
  · intro full fullOther settled
    have same := alike settled
    rw [perform_eq verbosity more (congrArg Logged.value same), toldAlike same,
      Log.shown_of_two_le full, ← Log.shown_of_two_le fullOther (told _ _ _ _), ← log_perform]
  · intro full fullOther done
    rw [log_perform, log_perform, Log.shown_of_two_le full, Log.shown_of_two_le fullOther]
    exact told_perm done

/-- A run that logs at every level, until a manifest is missing, and one that logs less and finds the
missing one first. The flags stand before the command, and again behind it. -/
theorem run_differs_in_log_only_failing :
    let workspace : Workspace := ⟨.directory [("dockscan.toml",
      .file "manifests = ['here', '[']".toUTF8), ("here", .file "USER app".toUTF8)], [], 0⟩
    let terminals : Terminals := ⟨false, false⟩
    let less := run workspace terminals ⟨[1]⟩ ["-v", "check", "--output", "json"]
    let more := run workspace terminals .oneByOne ["-v", "check", "--verbose", "--output=json", "-v"]
    more.exitCode = 2 ∧ less.exitCode = more.exitCode ∧ less.output = more.output ∧
      less.errors terminals = more.errors terminals ∧
      less.errorLines terminals = more.errorLines terminals ∧
      more.log = [.badPattern "[", .checking ⟨"/"⟩ 2, .loaded ⟨"/here"⟩ 1,
        .evaluated "base-image-tag" 0, .evaluated "non-root-user" 0, .evaluated "add-vs-copy" 0,
        .checked ⟨"/here"⟩ 0] ∧
      less.log = [.badPattern "[", .checking ⟨"/"⟩ 2] := by
  intro workspace terminals less more
  let command : Command := .check ⟨[], none, some "json", false⟩
  have parsed : parse ["-v", "check", "--output", "json"] = .ok ⟨1, command⟩ := rfl
  have parsedMore : parse ["-v", "check", "--verbose", "--output=json", "-v"] = .ok ⟨2, command⟩ := rfl
  have settled : settings? workspace command = some ⟨⟨"/"⟩, [⟨"/here"⟩, ⟨"/["⟩], "json", true⟩ := by
    decide +kernel
  have one : OneFailsAtMost workspace command := by
    have held : workspace.HoldsText ⟨"/here"⟩ "USER app" := rfl
    rw [OneFailsAtMost, manifests_eq settled]
    intro path mem other memOther unread unreadOther
    have missing {path : Path} (mem : path ∈ [(⟨"/here"⟩ : Path), ⟨"/["⟩])
        (unread : ¬ ∃ text, workspace.HoldsText path text) : path = ⟨"/["⟩ := by
      obtain rfl | rfl : path = ⟨"/here"⟩ ∨ path = ⟨"/["⟩ := by simpa using mem
      · exact absurd ⟨_, held⟩ unread
      · rfl
    rw [missing mem unread, missing memOther unreadOther]
  have clean : ShowsNoMark workspace terminals command := by
    intro settings same
    obtain rfl := Option.some.inj (settled.symm.trans same)
    unfold BearsMark
    decide +kernel
  have told : more.log = [.badPattern "[", .checking ⟨"/"⟩ 2, .loaded ⟨"/here"⟩ 1,
      .evaluated "base-image-tag" 0, .evaluated "non-root-user" 0, .evaluated "add-vs-copy" 0,
      .checked ⟨"/here"⟩ 0] := by decide +kernel
  obtain ⟨⟨code, output, -⟩, failing, -, filtered, -⟩ :=
    run_differs_in_log_only workspace terminals parsed parsedMore ⟨[1]⟩ .oneByOne
  obtain ⟨-, errors, lines⟩ := failing (.inr one)
  have left : less.log = _ := filtered (by decide) (.inr (.inr (by decide)))
  exact ⟨by decide +kernel, code, output, errors, lines clean, told, left.trans (by rw [told]; decide)⟩

/-- Runs that ask for one command, and differ in more than what is shown of a log. A path with a line feed
is logged as it is, and an error mark behind the line feed makes an error of a line that only the more
verbose run shows. Under two schedules, two manifests that are missing are each the one that is named, and
the events of two that are there are mixed in another way. -/
theorem run_differs_beyond_log :
    let broken : Workspace := ⟨.directory [("a\nerror: b", .file "USER app".toUTF8)], [], 0⟩
    let bare : Workspace := ⟨.empty, [], 0⟩
    let two : Workspace := ⟨.directory [("a", .file "USER x".toUTF8), ("b", .file "USER y".toUTF8)], [], 0⟩
    let terminals : Terminals := ⟨false, false⟩
    let path : Command := .check ⟨["a\nerror: b"], none, none, false⟩
    let both : Command := .check ⟨["a", "b"], none, none, false⟩
    (parse ["check", "a\nerror: b"] = .ok ⟨0, path⟩ ∧
      parse ["-vv", "check", "a\nerror: b"] = .ok ⟨2, path⟩ ∧
      (run broken terminals .oneByOne ["check", "a\nerror: b"]).errorLines terminals = [] ∧
      (run broken terminals .oneByOne ["-vv", "check", "a\nerror: b"]).errorLines terminals =
        ["error: b lines=1", "error: b findings=0"]) ∧
    (parse ["check", "a", "b"] = .ok ⟨0, both⟩ ∧ parse ["-vv", "check", "a", "b"] = .ok ⟨2, both⟩ ∧
      parse ["-vvv", "check", "a", "b"] = .ok ⟨3, both⟩) ∧
    ((run bare terminals .oneByOne ["check", "a", "b"]).errorLines terminals =
        ["error: Error reading config file a: No such file or directory (os error 2)"] ∧
      (run bare terminals ⟨[1]⟩ ["-vv", "check", "a", "b"]).errorLines terminals =
        ["error: Error reading config file b: No such file or directory (os error 2)"]) ∧
    (run two terminals .oneByOne ["-vv", "check", "a", "b"]).log ≠
      (run two terminals ⟨[1]⟩ ["-vvv", "check", "a", "b"]).log.filter
        fun event => event.level ∈ Log.enabled 2 := by
  intro broken bare two terminals path both
  have log : (run broken terminals .oneByOne ["-vv", "check", "a\nerror: b"]).log =
      [.checking ⟨"/"⟩ 1, .loaded ⟨"a\nerror: b"⟩ 1, .evaluated "base-image-tag" 0,
        .evaluated "non-root-user" 0, .evaluated "add-vs-copy" 0, .checked ⟨"a\nerror: b"⟩ 0] := by
    decide +kernel
  have message : (run broken terminals .oneByOne ["-vv", "check", "a\nerror: b"]).message = "" := by
    decide +kernel
  refine ⟨⟨rfl, rfl, by decide +kernel, ?_⟩, ⟨rfl, rfl, rfl⟩, ⟨by decide +kernel, by decide +kernel⟩,
    by decide +kernel⟩
  rw [Outcome.errorLines_eq, log, message]
  decide +kernel

end Program

end ManifestLint
