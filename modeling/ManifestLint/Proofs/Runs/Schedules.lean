import Mathlib.Data.List.Perm.Basic
import ManifestLint.Schedule

/-!
# What a schedule decides

Checks that go on at the same time come to the same values under every schedule, and to the error of one
that fails if there is one. The schedule decides which error that is, and how the events of different
checks are mixed.

* `turn_cases`: what a turn can come to;
* `Sound`: what holds of the checks at every turn, and `sound_turns`, that a run keeps it;
* `value_run_eq_ok_iff`, `exists_run_eq_error_iff`: the values of a run, and the errors that it can end
  with, which are those of the checks that fail;
* `events_run`: what a run logs is all that some of its checks tell, each in its own order, and if none
  fails it is all that they tell;
* `run_eq_of_length_le_one`: for one check the schedule decides nothing.
-/

namespace ManifestLint

/-! ## A list of attempts -/

section
variable {ε α β : Type} {f : α → Except ε β}

theorem mapM_eq_ok_iff {inputs : List α} {results : List β} :
    inputs.mapM f = .ok results ↔ List.Forall₂ (fun a b => f a = .ok b) inputs results := by
  induction inputs generalizing results with
  | nil => simp [pure, Except.pure, eq_comm]
  | cons a rest ih =>
    rw [List.mapM_cons, List.forall₂_cons_left_iff]
    constructor
    · intro run
      cases first : f a with
      | error error => rw [first] at run; cases run
      | ok b =>
        cases later : rest.mapM f with
        | error error => rw [first, later] at run; cases run
        | ok bs => rw [first, later] at run; cases run; exact ⟨b, bs, rfl, ih.1 later, rfl⟩
    · rintro ⟨b, bs, first, later, rfl⟩
      rw [first, ih.2 later]; rfl

/-- A list of attempts fails as one of them does. -/
theorem exists_mem_of_mapM_eq_error {inputs : List α} {error : ε} (h : inputs.mapM f = .error error) :
    ∃ a ∈ inputs, f a = .error error := by
  induction inputs with
  | nil => cases h
  | cons a rest ih =>
    rw [List.mapM_cons] at h
    cases first : f a with
    | error met => rw [first] at h; cases h; exact ⟨a, List.mem_cons_self, first⟩
    | ok b =>
      cases later : rest.mapM f with
      | ok bs => rw [first, later] at h; cases h
      | error met =>
        rw [first, later] at h
        cases h
        obtain ⟨a, mem, failed⟩ := ih later
        exact ⟨a, List.mem_cons_of_mem _ mem, failed⟩

/-- A list of attempts succeeds if each of them does. -/
theorem exists_mapM_eq_ok {inputs : List α} (h : ∀ a ∈ inputs, ∃ b, f a = .ok b) :
    ∃ results, inputs.mapM f = .ok results := by
  cases run : inputs.mapM f with
  | ok results => exact ⟨results, rfl⟩
  | error error =>
    obtain ⟨a, mem, failed⟩ := exists_mem_of_mapM_eq_error run
    obtain ⟨b, succeeded⟩ := h a mem
    rw [failed] at succeeded; cases succeeded

/-- If all attempts of a list succeed, each of them does. -/
theorem exists_eq_ok_of_mapM {inputs : List α} {results : List β} (h : inputs.mapM f = .ok results)
    {a : α} (mem : a ∈ inputs) : ∃ b, f a = .ok b := by
  have all := mapM_eq_ok_iff.1 h
  clear h
  induction all with
  | nil => cases mem
  | @cons first b rest _ succeeded _ ih =>
    obtain rfl | later := List.mem_cons.1 mem
    · exact ⟨b, succeeded⟩
    · exact ih later

end

namespace Schedule

variable {ε α : Type}

/-! ## One check -/

namespace Attempt

theorem failure?_eq_some_iff {attempt : Attempt ε α} {error : ε} :
    attempt.failure? = some error ↔ attempt.check.value = .error error := by
  unfold failure?
  cases attempt.check.value <;> simp

theorem logged_append_unlogged (attempt : Attempt ε α) :
    attempt.logged ++ attempt.unlogged = attempt.check.events :=
  List.take_append_drop attempt.told attempt.check.events

/-- What is logged when one more event is told. -/
theorem logged_next {attempt : Attempt ε α} {event : Log.Event}
    (next : attempt.check.events[attempt.told]? = some event) :
    logged { attempt with told := attempt.told + 1 } = attempt.logged ++ [event] := by
  simp only [logged]
  rw [List.take_add_one, next, Option.toList_some]

theorem logged_of_told_eq_zero {attempt : Attempt ε α} (h : attempt.told = 0) :
    attempt.logged = [] := by
  rw [logged, h, List.take_zero]

/-! ## Those that go on to their end -/

variable {attempts : List (Attempt ε α)}

theorem ending_sublist (failed : Bool) (attempts : List (Attempt ε α)) :
    (ending failed attempts).Sublist attempts := by
  induction attempts generalizing failed with
  | nil => exact .slnil
  | cons attempt rest ih =>
    rw [ending]
    split
    · exact (ih failed).cons attempt
    · exact (ih _).cons_cons attempt

/-- Those that do not go on to their end have told nothing. -/
theorem flatMap_logged_ending (failed : Bool) (attempts : List (Attempt ε α)) :
    (ending failed attempts).flatMap logged = attempts.flatMap logged := by
  induction attempts generalizing failed with
  | nil => rfl
  | cons attempt rest ih =>
    rw [ending]
    split
    · next idle =>
      have silent : attempt.told = 0 := by
        rw [Bool.and_eq_true, beq_iff_eq] at idle
        exact idle.2
      rw [List.flatMap_cons, logged_of_told_eq_zero silent, List.nil_append, ih]
    · rw [List.flatMap_cons, List.flatMap_cons, ih]

/-- Where none fails, all go on to their end. -/
theorem ending_of_succeeding (h : ∀ attempt ∈ attempts, attempt.failure? = none) :
    ending false attempts = attempts := by
  induction attempts with
  | nil => rfl
  | cons attempt rest ih =>
    have first := h attempt List.mem_cons_self
    have later : ∀ other ∈ rest, other.failure? = none := by
      intro other mem
      exact h other (List.mem_cons_of_mem _ mem)
    rw [ending, first]
    exact congrArg (attempt :: ·) (ih later)

end Attempt

/-! ## One turn -/

open Attempt

/-- A turn does nothing, or comes to the end of a check that has told all its events, or tells the next
event of one, which has begun by then if the run has failed. -/
theorem turn_cases (progress : Progress ε α) (position : Nat) :
    progress.turn position = progress ∨
    (∃ attempt ∈ progress.attempts, attempt.check.events[attempt.told]? = none ∧
      progress.turn position =
        { progress with failure := progress.failure <|> attempt.failure? }) ∨
    ∃ front attempt back event, progress.attempts = front ++ attempt :: back ∧
      attempt.check.events[attempt.told]? = some event ∧
      (progress.failure = none ∨ attempt.told ≠ 0) ∧
      progress.turn position =
        { progress with
          attempts := front ++ { attempt with told := attempt.told + 1 } :: back
          events := progress.events ++ [event] } := by
  unfold Progress.turn
  split
  · exact .inl rfl
  · next attempt found =>
    split
    · exact .inl rfl
    · next going =>
      split
      · next event next =>
        have begun : progress.failure = none ∨ attempt.told ≠ 0 := by
          rw [Bool.and_eq_true, not_and_or, beq_iff_eq, Option.not_isSome_iff_eq_none] at going
          exact going
        obtain ⟨inside, rfl⟩ := List.getElem?_eq_some_iff.1 found
        obtain ⟨front, back, cut, -, moved⟩ := List.exists_of_set inside
        exact .inr (.inr ⟨front, _, back, event, cut, next, begun, by rw [moved]⟩)
      · next ended => exact .inr (.inl ⟨attempt, List.mem_of_getElem? found, ended, rfl⟩)

/-- What holds of the checks of a run at every turn: they are the same, an error is that of one of them,
and what was logged is what they have told, each in its own order. -/
structure Sound (checks : List (Logged (Except ε α))) (progress : Progress ε α) : Prop where
  kept : progress.attempts.map Attempt.check = checks
  fails : ∀ error, progress.failure = some error → ∃ check ∈ checks, check.value = .error error
  told : progress.events.Perm (progress.attempts.flatMap logged)
  inOrder : ∀ attempt ∈ progress.attempts, attempt.logged.Sublist progress.events

variable {checks : List (Logged (Except ε α))} {progress : Progress ε α}

theorem Sound.mem (h : Sound checks progress) {attempt : Attempt ε α}
    (mem : attempt ∈ progress.attempts) : attempt.check ∈ checks := by
  rw [← h.kept]
  exact List.mem_map_of_mem mem

theorem sound_start (checks : List (Logged (Except ε α))) : Sound checks (.start checks) where
  kept := by
    rw [Progress.start, List.map_map]
    exact List.map_id checks
  fails error failed := by cases failed
  told := by
    have silent : (checks.map fun check => (⟨check, 0⟩ : Attempt ε α)).flatMap logged = [] := by
      simp [List.flatMap_map, logged]
    simp [Progress.start, silent]
  inOrder attempt mem := by
    obtain ⟨check, -, rfl⟩ := List.mem_map.1 mem
    exact List.nil_sublist _

/-- A turn keeps what holds of the checks. -/
theorem Sound.turn (h : Sound checks progress) (position : Nat) :
    Sound checks (progress.turn position) := by
  obtain same | ⟨attempt, mem, -, ended⟩ | ⟨front, attempt, back, event, cut, next, -, moved⟩ :=
    turn_cases progress position
  · rw [same]
    exact h
  · rw [ended]
    refine ⟨h.kept, ?_, h.told, h.inOrder⟩
    intro error failed
    cases before : progress.failure with
    | some met =>
      rw [before] at failed
      exact h.fails error (before.trans failed)
    | none =>
      rw [before] at failed
      exact ⟨attempt.check, h.mem mem, failure?_eq_some_iff.1 failed⟩
  · have told := h.told
    have inOrder := h.inOrder
    rw [cut, List.flatMap_append, List.flatMap_cons] at told
    rw [moved]
    refine ⟨?_, h.fails, ?_, ?_⟩
    · rw [← h.kept, cut]
      simp
    · simp only [List.flatMap_append, List.flatMap_cons, logged_next next]
      refine (told.append_right [event]).trans ?_
      simp only [List.append_assoc]
      exact ((List.perm_append_comm).append_left attempt.logged).append_left (front.flatMap logged)
    · have before {other : Attempt ε α} (mem : other ∈ front ++ attempt :: back) :
          other.logged.Sublist (progress.events ++ [event]) :=
        (inOrder other (cut ▸ mem)).trans (List.sublist_append_left _ _)
      intro other mem
      obtain left | rfl | right := by simpa only [List.mem_append, List.mem_cons] using mem
      · exact before (List.mem_append_left _ left)
      · rw [logged_next next]
        exact (inOrder attempt (by rw [cut]; simp)).append_right [event]
      · exact before (List.mem_append_right _ (List.mem_cons_of_mem _ right))

/-- All turns of a run keep it. -/
theorem sound_turns (turns : List Nat) (h : Sound checks progress) :
    Sound checks (turns.foldl Progress.turn progress) := by
  induction turns generalizing progress with
  | nil => exact h
  | cons position rest ih => exact ih (h.turn position)

/-! ## Runs -/

/-- What a run comes to, from a state that holds what every turn keeps. -/
theorem exists_sound (schedule : Schedule) (checks : List (Logged (Except ε α))) :
    ∃ progress, Sound checks progress ∧ schedule.run checks = progress.outcome :=
  ⟨_, sound_turns schedule.turns (sound_start checks), rfl⟩

theorem Sound.mapM_attempts (h : Sound checks progress) :
    progress.attempts.mapM (·.check.value) = checks.mapM (·.value) := by
  rw [← h.kept, List.mapM_map]
  rfl

theorem Sound.failure_eq_none (h : Sound checks progress) {values : List α}
    (succeeding : checks.mapM (·.value) = .ok values) : progress.failure = none := by
  cases failed : progress.failure with
  | none => rfl
  | some error =>
    obtain ⟨check, mem, fails⟩ := h.fails error failed
    obtain ⟨a, succeeds⟩ := exists_eq_ok_of_mapM succeeding mem
    rw [fails] at succeeds
    cases succeeds

/-- A run succeeds under every schedule or under none, and with the values of its checks. -/
theorem value_run_eq_ok_iff {schedule : Schedule} {values : List α} :
    (schedule.run checks).value = .ok values ↔ checks.mapM (·.value) = .ok values := by
  obtain ⟨progress, sound, came⟩ := exists_sound schedule checks
  rw [came, Progress.outcome, ← sound.mapM_attempts]
  constructor
  · intro succeeded
    cases failed : progress.failure with
    | none => simpa only [failed] using succeeded
    | some error => simp [failed] at succeeded
  · intro succeeding
    rw [sound.mapM_attempts] at succeeding
    simp only [sound.failure_eq_none succeeding, sound.mapM_attempts, succeeding]

/-- A run that fails ends with the error of a check that fails. -/
theorem exists_mem_of_value_run_eq_error {schedule : Schedule} {error : ε}
    (h : (schedule.run checks).value = .error error) :
    ∃ check ∈ checks, check.value = .error error := by
  obtain ⟨progress, sound, came⟩ := exists_sound schedule checks
  rw [came, Progress.outcome] at h
  cases failed : progress.failure with
  | some met =>
    simp only [failed, Except.error.injEq] at h
    exact sound.fails error (h ▸ failed)
  | none =>
    simp only [failed, sound.mapM_attempts] at h
    exact exists_mem_of_mapM_eq_error h

theorem toOption_value_run (schedule : Schedule) (checks : List (Logged (Except ε α))) :
    (schedule.run checks).value.toOption = (checks.mapM Logged.value).toOption := by
  cases came : (schedule.run checks).value with
  | ok values => rw [value_run_eq_ok_iff.1 came]
  | error error =>
    cases all : checks.mapM Logged.value with
    | error met => rfl
    | ok values =>
      rw [value_run_eq_ok_iff.2 all] at came
      cases came

/-- Where all checks that fail come to one error, the schedule decides no value. -/
theorem value_run_eq (alike : ∀ check ∈ checks, ∀ other ∈ checks, ∀ error met,
      check.value = .error error → other.value = .error met → error = met)
    (schedule other : Schedule) : (schedule.run checks).value = (other.run checks).value := by
  cases here : (schedule.run checks).value with
  | ok values => exact (value_run_eq_ok_iff.2 (value_run_eq_ok_iff.1 here)).symm
  | error error =>
    cases there : (other.run checks).value with
    | ok values =>
      rw [value_run_eq_ok_iff.2 (value_run_eq_ok_iff.1 there)] at here
      cases here
    | error met =>
      obtain ⟨check, mem, fails⟩ := exists_mem_of_value_run_eq_error here
      obtain ⟨another, memOther, failsOther⟩ := exists_mem_of_value_run_eq_error there
      rw [alike check mem another memOther error met fails failsOther]

/-- What a run logs is all that some of its checks tell, each in its own order. Where none fails, it is
all that the checks tell. -/
theorem events_run (schedule : Schedule) (checks : List (Logged (Except ε α))) :
    ∃ ended : List (Logged (Except ε α)), ended.Sublist checks ∧
      (schedule.run checks).events.Perm (ended.flatMap (·.events)) ∧
      (∀ check ∈ ended, check.events.Sublist (schedule.run checks).events) ∧
      ∀ values, checks.mapM (·.value) = .ok values → ended = checks := by
  obtain ⟨progress, sound, came⟩ := exists_sound schedule checks
  rw [came, Progress.outcome]
  generalize gone : ending progress.failure.isSome progress.attempts = ended
  have among : ended.Sublist progress.attempts := gone ▸ ending_sublist _ _
  refine ⟨ended.map Attempt.check, ?_, ?_, ?_, ?_⟩
  · rw [← sound.kept]
    exact among.map Attempt.check
  · have told : progress.events.Perm (ended.flatMap logged) := by
      rw [← gone, flatMap_logged_ending]
      exact sound.told
    refine (told.append_right _).trans ((List.flatMap_append_perm ended logged unlogged).trans ?_)
    simp only [logged_append_unlogged, List.flatMap_map]
    exact .refl _
  · intro check mem
    obtain ⟨attempt, going, rfl⟩ := List.mem_map.1 mem
    have later : attempt.unlogged.Sublist (ended.flatMap unlogged) :=
      List.sublist_flatten_of_mem (List.mem_map_of_mem going)
    rw [← logged_append_unlogged attempt]
    exact (sound.inOrder attempt (among.subset going)).append later
  · intro values succeeding
    have all : ∀ attempt ∈ progress.attempts, attempt.failure? = none := by
      intro attempt mem
      obtain ⟨a, succeeds⟩ := exists_eq_ok_of_mapM succeeding (sound.mem mem)
      rw [failure?, succeeds]
    rw [sound.failure_eq_none succeeding, Option.isSome_none, ending_of_succeeding all] at gone
    rw [← gone, sound.kept]

/-- Checks that all succeed log the same under every schedule, save for how their events are mixed. -/
theorem events_run_of_succeeding {values : List α} (succeeding : checks.mapM (·.value) = .ok values)
    (schedule : Schedule) :
    (schedule.run checks).events.Perm (checks.flatMap (·.events)) ∧
      ∀ check ∈ checks, check.events.Sublist (schedule.run checks).events := by
  obtain ⟨ended, -, perm, inOrder, all⟩ := events_run schedule checks
  obtain rfl := all values succeeding
  exact ⟨perm, inOrder⟩

/-! ## Few checks -/

theorem events_run_nil (schedule : Schedule) :
    (schedule.run ([] : List (Logged (Except ε α)))).events = [] := by
  obtain ⟨ended, among, perm, -⟩ := events_run schedule ([] : List (Logged (Except ε α)))
  rw [List.sublist_nil.1 among] at perm
  exact List.perm_nil.1 perm

/-- A single check, which logs nothing if it fails, logs what it tells. -/
theorem events_run_singleton {check : Logged (Except ε α)}
    (silent : ∀ error, check.value = .error error → check.events = []) (schedule : Schedule) :
    (schedule.run [check]).events = check.events := by
  obtain ⟨ended, among, perm, inOrder, all⟩ := events_run schedule [check]
  cases came : check.value with
  | ok a =>
    obtain rfl : ended = [check] := all [a] (by simp [came])
    rw [List.flatMap_singleton] at perm
    exact ((inOrder check (.head _)).eq_of_length perm.length_eq.symm).symm
  | error error =>
    have nothing := silent error came
    have none : ended.flatMap (·.events) = [] := by
      rw [List.flatMap_eq_nil_iff]
      intro other mem
      rw [List.mem_singleton.1 (among.subset mem), nothing]
    rw [none] at perm
    rw [nothing, List.perm_nil.1 perm]

/-- For one check, which logs nothing if it fails, the schedule decides nothing. -/
theorem run_eq_of_length_le_one (few : checks.length ≤ 1)
    (silent : ∀ check ∈ checks, ∀ error, check.value = .error error → check.events = [])
    (schedule other : Schedule) : schedule.run checks = other.run checks := by
  have alike : ∀ check ∈ checks, ∀ another ∈ checks, check = another := by
    intro check mem another memOther
    obtain ⟨i, inside, rfl⟩ := List.mem_iff_getElem.1 mem
    obtain ⟨j, insideOther, rfl⟩ := List.mem_iff_getElem.1 memOther
    have same : i = j := by omega
    subst same
    rfl
  refine Logged.ext ?_ ?_
  · refine value_run_eq ?_ schedule other
    intro check mem another memOther error met fails failsOther
    rw [alike check mem another memOther, failsOther] at fails
    exact (Except.error.inj fails).symm
  · match checks, few with
    | [], _ => rw [events_run_nil, events_run_nil]
    | [check], _ =>
      have quiet := silent check (.head _)
      rw [events_run_singleton quiet, events_run_singleton quiet]

/-! ## Every error can be come to first -/

/-- A check that alone gets on tells its next events. -/
theorem turns_of_one {progress : Progress ε α} {position told : Nat} {check : Logged (Except ε α)}
    (found : progress.attempts[position]? = some ⟨check, told⟩) (going : progress.failure = none)
    (count : Nat) (left : told + count ≤ check.events.length) :
    ((List.replicate count position).foldl Progress.turn progress).attempts[position]? =
        some ⟨check, told + count⟩ ∧
      ((List.replicate count position).foldl Progress.turn progress).failure = none := by
  induction count generalizing progress told with
  | zero => exact ⟨found, going⟩
  | succ count ih =>
    have inside := (List.getElem?_eq_some_iff.1 found).1
    have next : check.events[told]? = some check.events[told] := List.getElem?_eq_getElem (by omega)
    have moved : progress.turn position =
        { progress with
          attempts := progress.attempts.set position ⟨check, told + 1⟩
          events := progress.events ++ [check.events[told]] } := by
      simp [Progress.turn, found, going, next]
    rw [List.replicate_succ, List.foldl_cons, moved, show told + (count + 1) = told + 1 + count by omega]
    refine ih ?_ going (by omega)
    simp [inside]

/-- A run can end with the error of each check that fails, and with no other. -/
theorem exists_run_eq_error_iff {error : ε} :
    (∃ schedule : Schedule, (schedule.run checks).value = .error error) ↔
      ∃ check ∈ checks, check.value = .error error := by
  constructor
  · rintro ⟨schedule, failed⟩
    exact exists_mem_of_value_run_eq_error failed
  · rintro ⟨check, mem, fails⟩
    obtain ⟨position, inside, rfl⟩ := List.mem_iff_getElem.1 mem
    have found : (Progress.start checks).attempts[position]? = some ⟨checks[position], 0⟩ := by
      simp [Progress.start, inside]
    obtain ⟨told, going⟩ := turns_of_one found rfl checks[position].events.length (by omega)
    refine ⟨⟨List.replicate checks[position].events.length position ++ [position]⟩, ?_⟩
    simp [run, Progress.turn, Progress.outcome, told, going, failure?, fails]

end Schedule

end ManifestLint
