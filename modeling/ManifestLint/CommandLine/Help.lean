import ManifestLint.CommandLine.Basic

/-!
# Pages of help

What the program says about itself and its commands, and what an argument list is answered that asks
for this, or for nothing that there is. A short page sets entries in two columns; a long one sets the
explanation of an entry on a line of its own, with a blank line after it.
-/

namespace ManifestLint.CommandLine

namespace Help

/-- Something that can be written, and what it does. -/
structure Entry where
  spelling : String
  explanation : String

/-- A page, before it is known whether it is to be short or long. -/
structure Page where
  about : List String
  usage : String
  arguments : List Entry
  commands : List Entry
  options : List Entry
  examples : List String

def verbose : Entry := ⟨"-v, --verbose...", "Raise log verbosity on stderr (-v info, -vv debug)"⟩

def help (long : Bool) : Entry :=
  ⟨"-h, --help", if long then "Print help (see a summary with '-h')"
    else "Print help (see more with '--help')"⟩

def program (long : Bool) : Page where
  about :=
    if long then [
      "dockscan reads container build manifests line by line and reports risky patterns: unpinned " ++
        "'latest' base images, 'scratch' bases, missing USER instructions, and ADD where COPY would do.",
      "",
      "Configuration precedence: CLI > dockscan.toml > defaults."]
    else ["Scan Dockerfiles for common security misconfigurations"]
  usage := "dockscan [OPTIONS] <COMMAND>"
  arguments := []
  commands := [
    ⟨"version", "Show version"⟩,
    ⟨"check", "Run manifest checks"⟩,
    ⟨"rules", "List rules"⟩,
    ⟨"help", "Print this message or the help of the given subcommand(s)"⟩]
  options := [verbose, help long, ⟨"-V, --version", "Print version"⟩]
  examples := [
    "dockscan check",
    "dockscan check docker/api.Dockerfile docker/web.Dockerfile",
    "dockscan check --output json",
    "dockscan rules"]

def check (long : Bool) : Page where
  about := [
    if long then
      "Check one or more Dockerfiles. Without paths, manifests come from dockscan.toml, else " ++
        "./Dockerfile. A manifest that cannot be read stops the run with exit code 2."
    else "Run manifest checks"]
  usage := "dockscan check [OPTIONS] [PATHS]..."
  arguments := [⟨"[PATHS]...", "Manifest paths (default: from config, else Dockerfile)"⟩]
  commands := []
  options := [
    ⟨"    " ++ Setting.projectRoot.spelling,
      "Project root used for config discovery (default: current dir)"⟩,
    verbose,
    ⟨"    " ++ Setting.output.spelling, "Output mode: human|json (default: human)"⟩,
    ⟨"    --no-color", "Disable colored output"⟩,
    help long]
  examples := ["dockscan check", "dockscan check build/Dockerfile --output json"]

def rules (long : Bool) : Page where
  about := [if long then "Print the built-in rules in the order they run." else "List rules"]
  usage := "dockscan rules [OPTIONS]"
  arguments := []
  commands := []
  options := [verbose, help long]
  examples := []

def version (long : Bool) : Page where
  about := [if long then "Print the current dockscan version." else "Show version"]
  usage := "dockscan version [OPTIONS]"
  arguments := []
  commands := []
  options := [verbose, help long]
  examples := []

def helpItself : Page where
  about := ["Print this message or the help of the given subcommand(s)"]
  usage := "dockscan help [COMMAND]..."
  arguments := [⟨"[COMMAND]...", "Print help for the subcommand(s)"⟩]
  commands := []
  options := []
  examples := []

/-- Entries in two columns, two spaces apart. -/
def columns (entries : List Entry) : List String :=
  let width := (entries.map (·.spelling.length)).foldl max 0
  entries.map fun entry =>
    "  " ++ String.ofList (entry.spelling.toList.rightpad width ' ') ++ "  " ++ entry.explanation

def paragraph (entry : Entry) : List String :=
  ["  " ++ entry.spelling, "          " ++ entry.explanation]

/-- Entries over two lines each, with a blank line between them. -/
def paragraphs : List Entry → List String
  | [] => []
  | [entry] => paragraph entry
  | entry :: rest => paragraph entry ++ "" :: paragraphs rest

def headed (heading : String) (lines : List String) : List String :=
  if lines.isEmpty then [] else "" :: heading :: lines

/-- The lines of a page, with its entries in columns or as paragraphs. -/
def lines (entries : List Entry → List String) (page : Page) : List String :=
  page.about ++ ["", "Usage: " ++ page.usage] ++
    headed "Arguments:" (entries page.arguments) ++
    headed "Commands:" (columns page.commands) ++
    headed "Options:" (entries page.options) ++
    headed "Examples:" (page.examples.map ("  " ++ ·))

/-- The lines of the page on a topic. The page on help itself has one form only. -/
def pageLines (topic : Topic) (long : Bool) : List String :=
  let entries := if long then paragraphs else columns
  match topic with
  | .scope .program => lines entries (program long)
  | .scope (.command .check) => lines entries (check long)
  | .scope (.command .rules) => lines entries (rules long)
  | .scope (.command .version) => lines entries (version long)
  | .help => lines columns helpItself

def text (topic : Topic) (long : Bool) : String :=
  String.join ((pageLines topic long).map (· ++ "\n"))

end Help

namespace Refusal

/-- What is said in answer to other than a request. -/
def text : Refusal → String
  | .help topic long => Help.text topic long
  | .nothingAsked => Help.text (.scope .program) false
  | .version => programName ++ " " ++ programVersion ++ "\n"
  | .usage error => error.message ++ "\n\nFor more information, try '--help'.\n"

/-- The exit code that goes with it, zero if the answer is what was asked for. -/
def exitCode : Refusal → Nat
  | .help _ _ | .version => 0
  | .nothingAsked | .usage _ => 2

end Refusal

end ManifestLint.CommandLine
