import ManifestLint.CommandLine.Basic
import ManifestLint.Config.Discovery
import ManifestLint.Glob.Expand
import ManifestLint.Manifest
import ManifestLint.Path.Order

/-!
# Settings of a run

What a run goes by: the command line first, then the configuration of the project, then what holds
where neither says anything. Paths on the command line are taken as they are; entries of a
configuration are patterns, seen from the root of the project. Root and entry are Unicode texts, so the
pattern is written with both as they are.
-/

namespace ManifestLint

structure Settings where
  projectRoot : Path
  manifests : List Path
  output : String
  color : Bool
  deriving DecidableEq, Repr

namespace Path

/-- The paths without those that name the same as one before, or as one that was seen already. -/
def distinctFrom (seen : List Path) : List Path → List Path
  | [] => []
  | path :: rest =>
    if seen.any fun other => other.SameComponents path then distinctFrom seen rest
    else path :: distinctFrom (path :: seen) rest

/-- The paths, each by its first spelling. -/
def distinct (paths : List Path) : List Path := distinctFrom [] paths

end Path

namespace Settings

def defaultOutput : String := "human"

/-- The files that an entry of a configuration stands for, in order. Where there are none, or where
the entry is no pattern, it is the path of a file itself. -/
def expandEntry (workspace : Workspace) (root : Path) (entry : String) : Logged (List Path) := do
  let path := root.entry entry
  match Glob.Pattern.ofString? path.text with
  | none =>
    Logged.log (.badPattern entry)
    return [path]
  | some pattern =>
    match (pattern.expand workspace).filter workspace.holdsFile with
    | [] => return [path]
    | found => return Path.sorted found

/-- The files that some entries stand for, entry by entry, each file once. -/
def expandEntries (workspace : Workspace) (root : Path) (entries : List String) :
    Logged (List Path) := do
  return Path.distinct (← entries.mapM (expandEntry workspace root)).flatten

/-- The manifests to check, for a run that starts at `start`. -/
def manifestPaths (workspace : Workspace) (root start : Path) (asked : List String)
    (configured : Option (List String)) : Logged (List Path) :=
  if asked.isEmpty then
    match configured with
    | none | some [] => pure [start.entry Manifest.defaultName]
    | some entries => expandEntries workspace root entries
  else
    pure (asked.map Path.mk)

def resolveIn (workspace : Workspace) (directory : Path) (options : CommandLine.CheckOptions) :
    Logged Settings := do
  let start := (options.projectRoot.map (directory.join ⟨·⟩)).getD directory
  let root := workspace.projectRoot start
  let config := (← workspace.loadConfig root).getD .unset
  let manifests ← manifestPaths workspace root start options.paths config.manifests
  return {
    projectRoot := root
    manifests := manifests
    output := (options.output <|> config.output).getD defaultOutput
    color := !options.noColor && config.color.getD true }

def resolve (workspace : Workspace) (options : CommandLine.CheckOptions) : Logged Settings := do
  match workspace.currentPath? with
  | some directory => resolveIn workspace directory options
  | none =>
    Logged.log .noWorkingDirectory
    resolveIn workspace ⟨"."⟩ options

end Settings

end ManifestLint
