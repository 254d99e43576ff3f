import ManifestLint.Program

/-!
# Sessions

A session goes on in a workspace. Its steps change files, move about and keep checkers by a name, or
ask for what can be known: a manifest, what there is to find in it, the root of a project, its
configuration, the settings of a run, a report, and what comes of a whole run of the program. A step that
checks several manifests says under which schedule.
-/

namespace ManifestLint

/-- The workspace as it is now, and the checkers that are kept, the latest first. -/
structure Session where
  workspace : Workspace
  checkers : List (String × Checker)

namespace Session

/-- A session in which no checker is kept yet. -/
def start (workspace : Workspace) : Session := ⟨workspace, []⟩

inductive Step where
  | write (path : Path) (content : ByteArray)
  | makeDirectory (path : Path)
  | remove (path : Path)
  | enter (path : Path)
  | keep (name : String) (path : Option Path)
  | load (path : Path)
  | check (path : Path)
  | runKept (name : String)
  | findRoot (start : Path)
  | loadConfig (root : Path)
  | resolve (directory : Option Path) (options : CommandLine.CheckOptions)
  | lint (schedule : Schedule) (root : Path) (paths : List Path)
  | runProgram (terminals : Terminals) (schedule : Schedule) (arguments : List String)

/-- What a step comes to, in full. -/
inductive Answer where
  | done
  | kept (checker : Checker)
  | noChecker
  | manifest (result : Except LoadError Manifest)
  | findings (result : Logged (Except LoadError (List Finding)))
  | root (path : Path)
  | config (result : Logged (Option Config))
  | settings (result : Logged Settings)
  | report (result : Logged (Except LoadError Report))
  | outcome (outcome : Outcome)

/-- The checker of a path, or of the manifest where none is named. -/
def checkerOf (path : Option Path) : Checker := (path.map Checker.mk).getD .default

/-- Goes on in a changed workspace. -/
def change (session : Session) (workspace : Workspace) : Session × Answer :=
  ({ session with workspace }, .done)

def perform (session : Session) : Step → Session × Answer
  | .write path content => session.change (session.workspace.write path content)
  | .makeDirectory path => session.change (session.workspace.makeDirectory path)
  | .remove path => session.change (session.workspace.remove path)
  | .enter path => session.change (session.workspace.enter path)
  | .keep name path =>
    ({ session with checkers := (name, checkerOf path) :: session.checkers }, .kept (checkerOf path))
  | .load path => (session, .manifest (session.workspace.loadManifest path))
  | .check path => (session, .findings ((Checker.mk path).run session.workspace))
  | .runKept name =>
    match session.checkers.lookup name with
    | some checker => (session, .findings (checker.run session.workspace))
    | none => (session, .noChecker)
  | .findRoot start => (session, .root (session.workspace.projectRoot start))
  | .loadConfig root => (session, .config (session.workspace.loadConfig root))
  | .resolve (some directory) options =>
    (session, .settings (Settings.resolveIn session.workspace directory options))
  | .resolve none options => (session, .settings (Settings.resolve session.workspace options))
  | .lint schedule root paths =>
    (session, .report (session.workspace.lint schedule root paths))
  | .runProgram terminals schedule arguments =>
    (session, .outcome (Program.run session.workspace terminals schedule arguments))

/-- Steps one after another: where they lead, and the answer to each. -/
def run (session : Session) : List Step → Session × List Answer
  | [] => (session, [])
  | step :: rest =>
    let (next, answer) := session.perform step
    let (last, answers) := next.run rest
    (last, answer :: answers)

end Session

end ManifestLint
