import ManifestLint.Proofs.Settings.NearestRoot

/-!
# Where the root is found

The search for the root of a project goes up along the text of a path, and `..` is a component of it
like any other. So the root is a directory with which the path of the start begins. That is above the
start as long as the start goes on from there without `..`; a start such as `sub/..` goes on from a
directory below itself.

* `leadsToDirectory_projectRoot`: the root is a directory if the start is one;
* `projectRoot_above_start`: when it is the start or above it;
* `projectRoot_below_start`: a root below the start.
-/

namespace ManifestLint

namespace Workspace

variable {workspace : Workspace} {path : Path}

/-- The names on the way to a path, with `.` and `..` taken as steps, lead to a directory. -/
def LeadsToDirectory (workspace : Workspace) (path : Path) : Prop :=
  ∃ here above, FileTree.trail? (workspace.names path) [workspace.tree] = some (here :: above) ∧
    here.isDirectory = true

theorem leadsToDirectory_of_holdsDirectory (anchored : path.isAbsolute = true)
    (h : workspace.holdsDirectory path = true) : workspace.LeadsToDirectory path := by
  unfold holdsDirectory at h
  split at h
  · next here found =>
    obtain ⟨above, walked⟩ := exists_walk_of_locate found
    rw [start, if_pos anchored] at walked
    exact ⟨here, above, names_of_isAbsolute anchored ▸ FileTree.trail?_of_walk rfl walked, h⟩
  · cases h

/-- What contains an entry is a directory. -/
theorem leadsToDirectory_of_contains (anchored : path.isAbsolute = true) {name : String}
    (h : workspace.Contains path name) : workspace.LeadsToDirectory path := by
  obtain ⟨here, above, child, walked, found⟩ := h.led
  rw [start, if_pos anchored] at walked
  exact ⟨here, above, names_of_isAbsolute anchored ▸ FileTree.trail?_of_walk rfl walked,
    FileTree.isDirectory_of_found found⟩

/-- The root of the project around a directory is a directory. -/
theorem leadsToDirectory_projectRoot {start : Path} (anchored : start.isAbsolute = true)
    (there : workspace.holdsDirectory start = true) :
    workspace.LeadsToDirectory (workspace.projectRoot start) := by
  unfold projectRoot
  cases found : start.ancestors.find? workspace.marksRoot with
  | none => exact leadsToDirectory_of_holdsDirectory anchored there
  | some root =>
    have rooted := Path.isAbsolute_of_mem_ancestors anchored (List.mem_of_find?_eq_some found)
    have marked : workspace.marksRoot root = true := List.find?_some found
    obtain ⟨name, -, contains⟩ := marksRoot_iff.1 marked
    exact leadsToDirectory_of_contains rooted contains

/-- Steps none of which goes up lead on from a way. -/
theorem prefix_foldl_step {rest : List Path.Component} (steps : ∀ component ∈ rest, component.IsStep)
    (down : .parent ∉ rest) (way : List String) : way <+: rest.foldl names.step way := by
  induction rest generalizing way with
  | nil => exact List.prefix_rfl
  | cons component rest ih =>
    obtain ⟨first, later⟩ := List.forall_mem_cons.1 steps
    obtain ⟨here, beyond⟩ := not_or.1 (mt List.mem_cons.2 down)
    refine List.IsPrefix.trans ?_ (ih later beyond _)
    cases component with
    | root => exact absurd first.stands (by decide)
    | current => exact absurd rfl first.ne_current
    | parent => exact absurd rfl here
    | name text => exact List.prefix_append _ _

/-- The way to a path above goes on to the path, if nothing between them goes up. -/
theorem names_prefix_of_components {above : Path} {rest : List Path.Component}
    (anchored : path.isAbsolute = true) (rooted : above.isAbsolute = true)
    (split : path.components = above.components ++ rest) (down : .parent ∉ rest) :
    workspace.names above <+: workspace.names path := by
  have steps : ∀ component ∈ rest, component.IsStep := by
    obtain ⟨way, top, steps⟩ := Path.components_of_isAbsolute anchored
    obtain ⟨front, topAbove, -⟩ := Path.components_of_isAbsolute rooted
    rw [top, topAbove, List.cons_append, List.cons.injEq] at split
    intro component mem
    exact steps component (split.2 ▸ List.mem_append_right _ mem)
  rw [names, names, split, List.foldl_append]
  exact prefix_foldl_step steps down _

/-- **The root is found by going up, as far as no `..` is passed.** Around a start that is a directory, the
root is a directory with whose components the start begins. Where the start goes on from there without
`..`, and so wherever it has none, the root is the start itself or a directory above it. -/
theorem projectRoot_above_start (workspace : Workspace) {directory : Path}
    (anchored : directory.isAbsolute = true) (options : CommandLine.CheckOptions)
    (there : workspace.holdsDirectory (Settings.startOf directory options) = true) :
    let start := Settings.startOf directory options
    let root := workspace.projectRoot start
    workspace.LeadsToDirectory root ∧
      (∃ rest, start.components = root.components ++ rest ∧
        (.parent ∉ rest → workspace.names root <+: workspace.names start)) ∧
      (.parent ∉ start.components → workspace.names root <+: workspace.names start) := by
  intro start root
  have startAnchored : start.isAbsolute = true := Settings.isAbsolute_startOf anchored options
  have rooted : root.isAbsolute = true := Settings.isAbsolute_projectRoot startAnchored
  have onTheWay : root ∈ start.ancestors := Settings.projectRoot_mem_ancestors start
  obtain ⟨rest, split⟩ := Path.exists_append_of_mem_ancestors onTheWay
  have above (down : .parent ∉ rest) : workspace.names root <+: workspace.names start :=
    names_prefix_of_components startAnchored rooted split down
  refine ⟨leadsToDirectory_projectRoot startAnchored there, ⟨rest, split, above⟩, fun down => ?_⟩
  refine above fun mem => down ?_
  rw [split]
  exact List.mem_append_right _ mem

/-- A start below a repository, which passes `..` on the way there and a dot behind it. -/
theorem projectRoot_above_start_repository :
    let workspace : Workspace := ⟨.directory [("p", .directory [(".git", .directory []),
      ("q", .directory [("dockscan.toml", .file ByteArray.empty)]),
      ("sub", .directory [("deep", .directory [])])])], ["p", "q"], 0⟩
    let options : CommandLine.CheckOptions := ⟨[], some "../sub/./deep", none, false⟩
    let start := Settings.startOf ⟨"/p/q"⟩ options
    workspace.holdsDirectory start = true ∧ start = ⟨"/p/q/../sub/./deep"⟩ ∧
      workspace.projectRoot start = ⟨"/p/q/.."⟩ ∧
      workspace.LeadsToDirectory ⟨"/p/q/.."⟩ ∧
      workspace.names start = ["p", "sub", "deep"] ∧
      workspace.names ⟨"/p/q/.."⟩ <+: workspace.names start := by
  intro workspace options start
  have there : workspace.holdsDirectory start = true := by decide +kernel
  have found : workspace.projectRoot start = ⟨"/p/q/.."⟩ := by decide +kernel
  have anchored : (Path.mk "/p/q").isAbsolute = true := rfl
  obtain ⟨directory, ⟨rest, split, above⟩, -⟩ :=
    projectRoot_above_start workspace anchored options there
  have behind : rest = [.name "sub", .name "deep"] := by
    have whole : start.components =
        (workspace.projectRoot start).components ++ [.name "sub", .name "deep"] := by decide +kernel
    exact List.append_cancel_left (split.symm.trans whole)
  rw [← found]
  exact ⟨there, by decide +kernel, rfl, directory, by decide +kernel, above (by rw [behind]; decide)⟩

/-- A start that leaves the directory it came through. The search finds a configuration in that directory,
which is below the start, and the run goes by it. -/
theorem projectRoot_below_start :
    let workspace : Workspace := ⟨.directory [("p", .directory [("Dockerfile", .file ByteArray.empty),
      ("sub", .directory [("dockscan.toml", .file "output = 'json'".toUTF8)])])], ["p"], 0⟩
    let options : CommandLine.CheckOptions := ⟨[], some "sub/..", none, false⟩
    let start := Settings.startOf ⟨"/p"⟩ options
    workspace.holdsDirectory ⟨"/p"⟩ = true ∧ workspace.holdsDirectory start = true ∧
      workspace.names start = ["p"] ∧
      workspace.names (workspace.projectRoot start) = ["p", "sub"] ∧
      ¬ workspace.names (workspace.projectRoot start) <+: workspace.names start ∧
      (Settings.resolveIn workspace ⟨"/p"⟩ options).value =
        ⟨⟨"/p/sub"⟩, [⟨"/p/sub/../Dockerfile"⟩], "json", true⟩ := by
  refine ⟨?_, ?_, ?_, ?_, ?_, ?_⟩ <;> decide +kernel

end Workspace

end ManifestLint
