import ManifestLint.CommandLine.Help
import ManifestLint.CommandLine.Parse
import ManifestLint.Lint
import ManifestLint.Report.Format
import ManifestLint.Settings

/-!
# The program

What comes of an argument list in a workspace: an exit code, what is printed, what is logged, and at
most one error message. A run that fails prints nothing.
-/

namespace ManifestLint

structure Outcome where
  exitCode : Nat
  output : String
  log : List Log.Event
  message : String

/-- Whether output and messages go to a terminal. -/
structure Terminals where
  output : Bool
  messages : Bool

namespace Outcome

/-- A run that succeeds and prints something. -/
def success (output : String) (log : List Log.Event) : Outcome := ⟨0, output, log, ""⟩

/-- A run that fails with a message. -/
def failure (message : String) (log : List Log.Event) : Outcome := ⟨2, "", log, message⟩

/-- All that is written besides the output. -/
def messages (outcome : Outcome) : String :=
  String.join (outcome.log.map fun event => event.text ++ "\n") ++ outcome.message

end Outcome

namespace Program

/-- A message with the word before it that marks an error, in bold red on a terminal. -/
def errorMessage (terminals : Terminals) (text : String) : String :=
  let mark := "error:"
  (if terminals.messages then Style.bold.apply (Style.red.apply mark) else mark) ++ " " ++ text ++ "\n"

/-- The message about a format that there is not. -/
def unknownOutput (output : String) : String :=
  "unknown output mode '" ++ output ++ "' (expected human|json)"

def checkWith (workspace : Workspace) (terminals : Terminals) (schedule : Schedule)
    (settings : Settings) : Logged (Except String String) :=
  match Report.Format.ofName? settings.output with
  | none => pure (.error (unknownOutput settings.output))
  | some format => do
    Logged.log (.checking settings.projectRoot settings.manifests.length)
    match ← workspace.lint schedule settings.projectRoot settings.manifests with
    | .error error => return .error error.message
    | .ok report => return .ok (report.render (settings.color && terminals.output) format)

def check (workspace : Workspace) (terminals : Terminals) (schedule : Schedule) (verbosity : Nat)
    (options : CommandLine.CheckOptions) : Outcome :=
  let result := Settings.resolve workspace options >>= checkWith workspace terminals schedule
  let log := Log.shown verbosity result.events
  match result.value with
  | .ok output => .success output log
  | .error text => .failure (errorMessage terminals text) log

def perform (workspace : Workspace) (terminals : Terminals) (schedule : Schedule)
    (request : CommandLine.Request) : Outcome :=
  match request.command with
  | .version => .success (CommandLine.programVersion ++ "\n") []
  | .rules => .success (Rule.listing Rule.registry) []
  | .check options => check workspace terminals schedule request.verbosity options

/-- An answer to other than a request, printed if it was asked for and a message if not. -/
def refuse (refusal : CommandLine.Refusal) : Outcome :=
  if refusal.exitCode = 0 then .success refusal.text [] else .failure refusal.text []

/-- What comes of an argument list, where manifests are checked under a schedule. -/
def run (workspace : Workspace) (terminals : Terminals) (schedule : Schedule)
    (arguments : List String) : Outcome :=
  match CommandLine.parse arguments with
  | .ok request => perform workspace terminals schedule request
  | .error refusal => refuse refusal

end Program

end ManifestLint
