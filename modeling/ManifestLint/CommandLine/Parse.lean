import ManifestLint.CommandLine.Options

/-!
# Reading the command line

Options of the program come first, then the name of a command, then what that command takes. The
first argument that asks for help or the version, or that is in error, decides.
-/

namespace ManifestLint.CommandLine

/-- The page of help that the words behind `help` name. No command has commands of its own. -/
def readHelp : List String → Refusal
  | [] => .help (.scope .program) true
  | name :: rest =>
    match Keyword.ofName? name, rest with
    | none, _ => .usage (.unknownCommand name)
    | some _, surplus :: _ => .usage (.unknownCommand surplus)
    | some (.command name), [] => .help (.scope (.command name)) true
    | some .help, [] => .help .help true

def CommandName.command (name : CommandName) (draft : Draft) : Command :=
  match name with
  | .version => .version
  | .rules => .rules
  | .check => .check ⟨draft.paths, draft.projectRoot, draft.output, draft.noColor⟩

/-- The request for a command, where `outer` is the verbosity asked of the program. What is asked of
the command counts instead, if anything is. -/
def readCommand (outer : Nat) (name : CommandName) (arguments : List String) :
    Except Refusal Request := do
  let draft ← Draft.empty.readAll (.command name) arguments
  return ⟨if draft.verbosity = 0 then outer else draft.verbosity, name.command draft⟩

/-- What an argument list without a command comes to. -/
def withoutCommand (draft : Draft) : Refusal :=
  if draft.verbosity = 0 then .nothingAsked else .usage .missingCommand

/-- What the words behind two dashes come to where a command should stand: none of them names one. -/
def readAfterDashes (draft : Draft) : List String → Refusal
  | [] => withoutCommand draft
  | word :: _ =>
    if (Keyword.ofName? word).isSome then .usage (.unknownArgument word)
    else .usage (.unknownCommand word)

/-- Reads the arguments up to the name of a command, and then those of the command. -/
def readProgram (draft : Draft) : List String → Except Refusal Request
  | [] => .error (withoutCommand draft)
  | argument :: rest =>
    match Keyword.ofName? argument with
    | some .help => .error (readHelp rest)
    | some (.command name) => readCommand draft.verbosity name rest
    | none =>
      if argument = "--" then .error (readAfterDashes draft rest)
      else do readProgram (← draft.readArgument .program argument) rest

def parse (arguments : List String) : Except Refusal Request := readProgram .empty arguments

end ManifestLint.CommandLine
