import ManifestLint.Proofs.Runs.AllOrNothing
import ManifestLint.Session

/-!
# Observing a session

To ask for something changes nothing: a step that observes leaves the session as it is, so what the
other steps come to does not hang on whether it was made. Main statements:

* `perform_of_observes`, `after_changes`: one step, and all steps of a run;
* `lookup_after`: a kept checker is the path that it was last kept with, and no more;
* `answer_congr`: what an answer hangs on;
* `observing_interferes_with_nothing`: steps that observe can be put in or left out anywhere, and a
  kept checker finds what a new one finds.
-/

namespace ManifestLint.Session

/-- Whether a step asks for something, and is not meant to change anything. -/
def Step.observes : Step → Bool
  | .write _ _ | .makeDirectory _ | .remove _ | .enter _ | .keep _ _ => false
  | .load _ | .check _ | .runKept _ | .findRoot _ | .loadConfig _ | .resolve _ _ | .lint _ _ _
  | .runProgram _ _ _ => true

/-- Where some steps lead. -/
def after (session : Session) (steps : List Step) : Session := (session.run steps).1

def answers (session : Session) (steps : List Step) : List Answer := (session.run steps).2

/-- The answer to one step. -/
def answer (session : Session) (step : Step) : Answer := (session.perform step).2

/-- The steps that change something. -/
def changes (steps : List Step) : List Step := steps.filter fun step => !step.observes

/-- The path that a step keeps a checker with, under a name. -/
def Step.keptPath? (name : String) : Step → Option Path
  | .keep named path => if named = name then some (path.getD ⟨Manifest.defaultName⟩) else none
  | _ => none

/-- The path that a checker was last kept with, under a name. -/
def keptPath? (name : String) (steps : List Step) : Option Path :=
  (steps.filterMap (Step.keptPath? name)).getLast?

/-- A step of a run that is looked at, or one that observes and is put in between. -/
inductive Entry where
  | own (step : Step)
  | between (step : Step) (observes : step.observes = true)

namespace Entry

def step : Entry → Step
  | .own step | .between step _ => step

def own? : Entry → Option Step
  | .own step => some step
  | .between _ _ => none

end Entry

/-- All steps of a run. -/
def allSteps (entries : List Entry) : List Step := entries.map Entry.step

/-- The steps of a run without those that were put in between. -/
def ownSteps (entries : List Entry) : List Step := entries.filterMap Entry.own?

/-- What the own steps of a run come to, when all its steps are made. -/
def ownAnswers (session : Session) (entries : List Entry) : List Answer :=
  (entries.zip (session.answers (allSteps entries))).filterMap fun (entry, answer) =>
    entry.own?.map fun _ => answer

variable {session : Session} {name : String}

/-! ## One step -/

theorem perform_of_observes {step : Step} (h : step.observes = true) :
    (session.perform step).1 = session := by
  cases step with
  | write | makeDirectory | remove | enter | keep => cases h
  | load | check | findRoot | loadConfig | lint | runProgram => rfl
  | runKept name =>
    simp only [perform]
    split <;> rfl
  | resolve directory options => cases directory <;> rfl

/-! ## Runs -/

theorem after_cons (step : Step) (rest : List Step) :
    session.after (step :: rest) = (session.perform step).1.after rest := rfl

theorem answers_cons (step : Step) (rest : List Step) :
    session.answers (step :: rest) = session.answer step :: (session.perform step).1.answers rest := rfl

/-- A run leads where its changes lead alone. -/
theorem after_changes (steps : List Step) : session.after (changes steps) = session.after steps := by
  -- The session in which a step is made changes along the run, so it is free in the induction.
  induction steps generalizing session with
  | nil => rfl
  | cons step rest ih =>
    rw [after_cons, ← ih]
    cases h : step.observes with
    | true =>
      rw [perform_of_observes h, changes, List.filter_cons_of_neg (by simp [h])]
      rfl
    | false =>
      rw [changes, List.filter_cons_of_pos (by simp [h])]
      rfl

theorem ownAnswers_own (step : Step) (rest : List Entry) :
    session.ownAnswers (.own step :: rest) =
      session.answer step :: (session.perform step).1.ownAnswers rest := rfl

theorem ownAnswers_between (step : Step) (observes : step.observes = true) (rest : List Entry) :
    session.ownAnswers (.between step observes :: rest) = session.ownAnswers rest := by
  have same : (session.perform step).1 = session := perform_of_observes observes
  change (session.perform step).1.ownAnswers rest = _
  rw [same]

/-- What is put in between does not change an answer. -/
theorem ownAnswers_eq (entries : List Entry) :
    session.ownAnswers entries = session.answers (ownSteps entries) := by
  induction entries generalizing session with
  | nil => rfl
  | cons entry rest ih =>
    cases entry with
    | own step =>
      rw [ownAnswers_own, ih]
      exact (answers_cons step (ownSteps rest)).symm
    | between step observes =>
      rw [ownAnswers_between, ih]
      rfl

/-! ## Checkers that are kept -/

/-- A step keeps a checker by its path, or leaves those that are there. -/
theorem lookup_perform (step : Step) :
    (session.perform step).1.checkers.lookup name =
      ((step.keptPath? name).map Checker.mk).or (session.checkers.lookup name) := by
  cases step with
  | write | makeDirectory | remove | enter => rfl
  | load | check | runKept | findRoot | loadConfig | resolve | lint | runProgram =>
    rw [perform_of_observes rfl]
    rfl
  | keep named path =>
    change ((named, checkerOf path) :: session.checkers).lookup name = _
    rw [List.lookup_cons, Step.keptPath?]
    by_cases same : named = name
    · subst same
      cases path <;> simp [checkerOf, Checker.default]
    · have other : (name == named) = false := by
        rw [beq_eq_false_iff_ne]
        exact fun h => same h.symm
      rw [other, if_neg same]
      rfl

/-- What is kept under a name is the path that came with it last. -/
theorem lookup_after (steps : List Step) :
    (session.after steps).checkers.lookup name =
      ((keptPath? name steps).map Checker.mk).or (session.checkers.lookup name) := by
  induction steps generalizing session with
  | nil => rfl
  | cons step rest ih =>
    rw [after_cons, ih, lookup_perform, keptPath?, keptPath?, List.filterMap_cons]
    cases step.keptPath? name with
    | none => rfl
    | some path =>
      dsimp only
      rw [List.getLast?_cons]
      cases (rest.filterMap (Step.keptPath? name)).getLast? <;> rfl

/-- An answer hangs on the workspace as it is, and on the checkers that the names stand for. -/
theorem answer_congr {a b : Session} (workspace : a.workspace = b.workspace)
    (kept : ∀ name, a.checkers.lookup name = b.checkers.lookup name) (step : Step) :
    a.answer step = b.answer step := by
  unfold answer
  cases step with
  | write | makeDirectory | remove | enter | keep => rfl
  | load | check | findRoot | loadConfig | lint | runProgram =>
    simp only [perform]
    rw [workspace]
  | runKept name =>
    simp only [perform]
    rw [workspace, kept]
    split <;> rfl
  | resolve directory options =>
    cases directory <;> simp only [perform, workspace]

variable (workspace : Workspace) (steps : List Step)

theorem lookup_start (name : String) :
    ((start workspace).after steps).checkers.lookup name =
      (keptPath? name steps).map Checker.mk := by
  rw [lookup_after]
  exact Option.or_none

/-- A kept checker finds what a new one on its path finds, whatever was done since it was kept. -/
theorem answer_runKept (name : String) :
    ((start workspace).after steps).answer (.runKept name) =
      match keptPath? name steps with
      | some path => ((start workspace).after steps).answer (.check path)
      | none => .noChecker := by
  simp only [answer, perform]
  rw [lookup_start]
  cases keptPath? name steps <;> rfl

/-- What a new checker finds is in the text that its path holds now. -/
theorem answer_check (path : Path) :
    ∃ result, ((start workspace).after steps).answer (.check path) = .findings result ∧
      result.value = match ((start workspace).after steps).workspace.readText path with
        | .ok text => .ok (Rule.checkAll (Text.splitLines text))
        | .error fault => .error ⟨path, fault⟩ :=
  ⟨_, rfl, Workspace.value_run path⟩

/-! ## All of a session -/

/-- **Observing interferes with nothing.** The answers to the steps of a run stay the same when steps
that observe are put in anywhere or left out, and a run leads where its changes lead alone. A kept
checker finds what a new one on its path finds at that moment, which is what there is to find in the
text that is there. Nothing is remembered but the path: where two runs have come to one workspace, and
names stand for the same paths, every answer is the same. -/
theorem observing_interferes_with_nothing (workspace : Workspace) (entries : List Entry) :
    (start workspace).ownAnswers entries = (start workspace).answers (ownSteps entries) ∧
    (∀ other : List Entry, ownSteps other = ownSteps entries →
      (start workspace).ownAnswers other = (start workspace).ownAnswers entries) ∧
    (∀ steps : List Step,
      (start workspace).after steps = (start workspace).after (changes steps)) ∧
    (∀ (steps : List Step) (name : String),
      ((start workspace).after steps).answer (.runKept name) =
        match keptPath? name steps with
        | some path => ((start workspace).after steps).answer (.check path)
        | none => .noChecker) ∧
    (∀ (steps : List Step) (path : Path),
      ∃ result, ((start workspace).after steps).answer (.check path) = .findings result ∧
        result.value = match ((start workspace).after steps).workspace.readText path with
          | .ok text => .ok (Rule.checkAll (Text.splitLines text))
          | .error fault => .error ⟨path, fault⟩) ∧
    ∀ (steps : List Step) (other : Workspace) (others : List Step),
      ((start other).after others).workspace = ((start workspace).after steps).workspace →
        (∀ name, keptPath? name others = keptPath? name steps) →
          ∀ step, ((start other).after others).answer step =
            ((start workspace).after steps).answer step := by
  refine ⟨ownAnswers_eq entries, ?_, ?_, answer_runKept workspace, answer_check workspace, ?_⟩
  · intro other same
    rw [ownAnswers_eq, ownAnswers_eq, same]
  · intro steps
    exact (after_changes steps).symm
  · intro steps other others same kept step
    apply answer_congr same
    intro name
    rw [lookup_start, lookup_start, kept]

/-- A checker that runs before and after its manifest is written anew, and a run of the program in
between. At the end it finds what there is to find in the new text, which is nothing. -/
theorem observing_interferes_with_nothing_rewritten :
    (start ⟨.empty, [], 0⟩).ownAnswers
        [.own (.keep "web" (some ⟨"/web"⟩)),
          .own (.write ⟨"/web"⟩ "FROM scratch".toUTF8),
          .between (.runKept "web") rfl,
          .between (.runProgram ⟨false, false⟩ .oneByOne ["check", "web"]) rfl,
          .own (.write ⟨"/web"⟩ "USER app".toUTF8),
          .own (.runKept "web")] =
      (start ⟨.empty, [], 0⟩).ownAnswers
        [.own (.keep "web" (some ⟨"/web"⟩)),
          .own (.write ⟨"/web"⟩ "FROM scratch".toUTF8),
          .own (.write ⟨"/web"⟩ "USER app".toUTF8),
          .own (.runKept "web")] ∧
    ∃ result, ((start ⟨.empty, [], 0⟩).after
        [.keep "web" (some ⟨"/web"⟩), .write ⟨"/web"⟩ "FROM scratch".toUTF8, .runKept "web",
          .write ⟨"/web"⟩ "USER app".toUTF8]).answer (.runKept "web") = .findings result ∧
      result.value = .ok [] := by
  obtain ⟨-, alike, -, kept, found, -⟩ := observing_interferes_with_nothing ⟨.empty, [], 0⟩
    [.own (.keep "web" (some ⟨"/web"⟩)), .own (.write ⟨"/web"⟩ "FROM scratch".toUTF8),
      .own (.write ⟨"/web"⟩ "USER app".toUTF8), .own (.runKept "web")]
  refine ⟨alike _ rfl, ?_⟩
  obtain ⟨result, answered, value⟩ := found
    [.keep "web" (some ⟨"/web"⟩), .write ⟨"/web"⟩ "FROM scratch".toUTF8, .runKept "web",
      .write ⟨"/web"⟩ "USER app".toUTF8] ⟨"/web"⟩
  exact ⟨result, (kept _ "web").trans answered, value.trans (by decide +kernel)⟩

end ManifestLint.Session
