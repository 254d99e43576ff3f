/-!
# The command line

What a user can ask for, and the ways in which an argument list can fail to ask for it.
-/

namespace ManifestLint.CommandLine

def programName : String := "dockscan"

def programVersion : String := "0.1.0"

/-- What the command `check` is given. Settings that are absent come from the configuration. -/
structure CheckOptions where
  paths : List String
  projectRoot : Option String
  output : Option String
  noColor : Bool
  deriving DecidableEq, Repr

inductive Command where
  | version
  | rules
  | check (options : CheckOptions)
  deriving DecidableEq, Repr

/-- A command, and how much to log on the way. -/
structure Request where
  verbosity : Nat
  command : Command
  deriving DecidableEq, Repr

/-- The commands that there are, without what they are given. -/
inductive CommandName where
  | version
  | rules
  | check
  deriving DecidableEq, Repr

/-- What an argument speaks to: the program itself, or one of its commands. -/
inductive Scope where
  | program
  | command (name : CommandName)
  deriving DecidableEq, Repr

/-- A word that takes the place of a command. -/
inductive Keyword where
  | command (name : CommandName)
  | help
  deriving DecidableEq, Repr

def Keyword.ofName? : String → Option Keyword
  | "version" => some (.command .version)
  | "check" => some (.command .check)
  | "rules" => some (.command .rules)
  | "help" => some .help
  | _ => none

/-- What a page of help is about. -/
inductive Topic where
  | scope (scope : Scope)
  | help
  deriving DecidableEq, Repr

/-- An option without a value. -/
inductive Switch where
  | verbose
  | noColor
  | help
  | version
  deriving DecidableEq, Repr

def Switch.spelling : Switch → String
  | .verbose => "--verbose..."
  | .noColor => "--no-color"
  | .help => "--help"
  | .version => "--version"

/-- An option with a value. -/
inductive Setting where
  | projectRoot
  | output
  deriving DecidableEq, Repr

def Setting.spelling : Setting → String
  | .projectRoot => "--project-root <PROJECT_ROOT>"
  | .output => "--output <OUTPUT>"

/-- Why an argument list asks for nothing that there is. -/
inductive UsageError where
  | unknownArgument (text : String)
  | unknownCommand (name : String)
  | missingCommand
  | missingValue (setting : Setting)
  | repeated (spelling : String)
  | surplusValue (value : String) (switch : Switch)
  deriving DecidableEq, Repr

def UsageError.message : UsageError → String
  | .unknownArgument text => "error: unexpected argument '" ++ text ++ "' found"
  | .unknownCommand name => "error: unrecognized subcommand '" ++ name ++ "'"
  | .missingCommand =>
    "error: '" ++ programName ++ "' requires a subcommand but one was not provided"
  | .missingValue setting =>
    "error: a value is required for '" ++ setting.spelling ++ "' but none was supplied"
  | .repeated spelling => "error: the argument '" ++ spelling ++ "' cannot be used multiple times"
  | .surplusValue value switch =>
    "error: unexpected value '" ++ value ++ "' for '" ++ switch.spelling ++
      "' found; no more were expected"

/-- What else than a request an argument list can come to: a page of help, short or long; the same
short page because nothing was asked; the version; an error. -/
inductive Refusal where
  | help (topic : Topic) (long : Bool)
  | nothingAsked
  | version
  | usage (error : UsageError)
  deriving DecidableEq, Repr

end ManifestLint.CommandLine
