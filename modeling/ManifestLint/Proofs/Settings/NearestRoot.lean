import ManifestLint.Proofs.FileTree.Entries
import ManifestLint.Proofs.Paths.Ancestors
import ManifestLint.Proofs.Settings.Manifests

/-!
# The nearest root

The root of a project is looked for at the start, one step up, and so on until there is no step left. It
is the first place that contains a marker; where none does, the start itself counts. Main statement:
`projectRoot_nearest`.

* `IsMarked`: whether a place contains a marker, by what the tree holds there;
* `Nearest`: what the search comes to, with `nearest_projectRoot` and `Nearest.unique`;
* `projectRoot_nearest_hidden`: a repository below a configuration.
-/

namespace ManifestLint

theorem isEntryName_of_mem_rootMarkers {name : String} (mem : name ∈ Config.rootMarkers) :
    IsEntryName name := by
  have all : ∀ name ∈ Config.rootMarkers, IsEntryName name := by decide
  exact all name mem

namespace Workspace

/-- Whether a place contains a configuration or a repository. -/
def IsMarked (workspace : Workspace) (place : Path) : Prop :=
  ∃ name ∈ ["dockscan.toml", "dockscan.yaml", "dockscan.yml", ".git"], workspace.Contains place name

/-- The place that is nearest to a start, going up, among those that are marked; or the start, where none
is. -/
inductive Nearest (workspace : Workspace) (start : Path) : Path → Prop
  | marked {steps : Nat} {root : Path} (above : start.up? steps = some root)
      (here : workspace.IsMarked root)
      (first : ∀ fewer < steps, ∀ place, start.up? fewer = some place → ¬ workspace.IsMarked place) :
      Nearest workspace start root
  | bare (nowhere : ∀ steps place, start.up? steps = some place → ¬ workspace.IsMarked place) :
      Nearest workspace start start

variable {workspace : Workspace} {start : Path}

theorem marksRoot_iff {place : Path} : workspace.marksRoot place = true ↔ workspace.IsMarked place := by
  have listed : Config.rootMarkers = ["dockscan.toml", "dockscan.yaml", "dockscan.yml", ".git"] := rfl
  rw [marksRoot, List.any_eq_true, IsMarked, ← listed]
  constructor
  · rintro ⟨name, mem, held⟩
    exact ⟨name, mem, (holds_entry_iff (isEntryName_of_mem_rootMarkers mem)).1 held⟩
  · rintro ⟨name, mem, contains⟩
    exact ⟨name, mem, (holds_entry_iff (isEntryName_of_mem_rootMarkers mem)).2 contains⟩

theorem nearest_projectRoot (workspace : Workspace) (start : Path) :
    workspace.Nearest start (workspace.projectRoot start) := by
  unfold projectRoot
  cases found : start.ancestors.find? workspace.marksRoot with
  | none =>
    refine .bare fun steps place above marked => ?_
    have mem := Path.mem_ancestors_iff.2 ⟨steps, above⟩
    exact List.find?_eq_none.1 found place mem (marksRoot_iff.2 marked)
  | some root =>
    obtain ⟨marked, steps, inside, here, earlier⟩ := List.find?_eq_some_iff_getElem.1 found
    have above : start.up? steps = some root := by
      rw [← Path.getElem?_ancestors, List.getElem?_eq_getElem inside, here]
    refine .marked above (marksRoot_iff.1 marked) fun fewer less place below passed => ?_
    rw [← Path.getElem?_ancestors] at below
    obtain ⟨before, same⟩ := List.getElem?_eq_some_iff.1 below
    have unmarked := earlier fewer less
    rw [same, marksRoot_iff.2 passed] at unmarked
    cases unmarked

/-- Where something in the chain is marked, what is nearest is the first such place. -/
theorem Nearest.of_marked {root place : Path} {steps : Nat} (nearest : workspace.Nearest start root)
    (above : start.up? steps = some place) (here : workspace.IsMarked place) :
    workspace.IsMarked root ∧ ∃ fewer ≤ steps, start.up? fewer = some root := by
  cases nearest with
  | @marked reached _ up marked first =>
    refine ⟨marked, reached, Nat.le_of_not_lt fun less => ?_, up⟩
    exact first steps less place above here
  | bare nowhere => exact absurd here (nowhere steps place above)

theorem Nearest.unique {root other : Path} (nearest : workspace.Nearest start root)
    (again : workspace.Nearest start other) : root = other := by
  cases nearest with
  | bare nowhere =>
    cases again with
    | bare => rfl
    | marked up marked => exact absurd marked (nowhere _ _ up)
  | @marked steps _ up marked first =>
    obtain ⟨there, fewer, less, upThere⟩ := again.of_marked up marked
    obtain same | before := Nat.eq_or_lt_of_le less
    · rw [same, up] at upThere
      exact Option.some.inj upThere
    · exact absurd there (first fewer before other upThere)

/-- The start itself is the root when it is marked, or when nothing is. -/
theorem Nearest.self_iff :
    workspace.Nearest start start ↔ workspace.IsMarked start ∨
      ∀ steps place, start.up? steps = some place → ¬ workspace.IsMarked place := by
  constructor
  · intro nearest
    cases nearest with
    | marked _ marked => exact .inl marked
    | bare nowhere => exact .inr nowhere
  · rintro (here | nowhere)
    · exact .marked rfl here fun _ less => absurd less (Nat.not_lt_zero _)
    · exact .bare nowhere

/-- From the nearest place on, nothing is nearer. -/
theorem Nearest.settled {root : Path} (nearest : workspace.Nearest start root) :
    workspace.Nearest root root := by
  cases nearest with
  | marked _ marked => exact Nearest.self_iff.2 (.inl marked)
  | bare nowhere => exact .bare nowhere

/-- **The root is the nearest place that is marked.** Whatever the tree holds, and wherever the start is,
going up from the start comes to an end, and the root is the first place on the way that contains a marker;
it is the start itself just if the start contains one or no place does. So a repository hides a
configuration that is farther up, and the root of the root is the root. -/
theorem projectRoot_nearest (workspace : Workspace) (start : Path) :
    let root := workspace.projectRoot start
    start.up? (start.components.length + 1) = none ∧
      (∃ steps, start.up? steps = some root) ∧
      (∀ place, root = place ↔ workspace.Nearest start place) ∧
      (root = start ↔ workspace.IsMarked start ∨
        ∀ steps place, start.up? steps = some place → ¬ workspace.IsMarked place) ∧
      (∀ near far repository hidden, near < far → start.up? near = some repository →
        workspace.Contains repository ".git" → start.up? far = some hidden → root ≠ hidden) ∧
      workspace.projectRoot root = root := by
  intro root
  have nearest : workspace.Nearest start root := nearest_projectRoot workspace start
  have isNearest (place : Path) : root = place ↔ workspace.Nearest start place :=
    ⟨fun same => same ▸ nearest, nearest.unique⟩
  refine ⟨Path.up?_eq_none (Nat.lt_succ_self _), ?_, isNearest, (isNearest start).trans Nearest.self_iff,
    ?_, ?_⟩
  · exact Path.mem_ancestors_iff.1 (Settings.projectRoot_mem_ancestors start)
  · intro near far repository hidden less above contains beyond same
    have marked : workspace.IsMarked repository := ⟨".git", by decide, contains⟩
    obtain ⟨-, steps, within, up⟩ := nearest.of_marked above marked
    have passed : steps = far := Path.up?_unique up (same ▸ beyond)
    omega
  · exact (nearest_projectRoot workspace root).unique nearest.settled

/-- A repository below a configuration, looked for from a path that leads nowhere. -/
theorem projectRoot_nearest_hidden :
    let workspace : Workspace := ⟨.directory [("p", .directory [("dockscan.toml", .file ByteArray.empty),
      ("q", .directory [(".git", .directory [])])])], ["p"], 0⟩
    let start : Path := ⟨"q/r//s"⟩
    start.up? 2 = some ⟨"q"⟩ ∧ workspace.Contains ⟨"q"⟩ ".git" ∧
      start.up? 3 = some ⟨""⟩ ∧ workspace.Contains ⟨""⟩ "dockscan.toml" ∧
      workspace.projectRoot start ≠ ⟨""⟩ ∧ workspace.projectRoot start = ⟨"q"⟩ ∧
      workspace.Nearest start ⟨"q"⟩ := by
  intro workspace start
  have repository : workspace.Contains ⟨"q"⟩ ".git" :=
    (holds_entry_iff (by decide)).1 (by decide +kernel)
  have configuration : workspace.Contains ⟨""⟩ "dockscan.toml" :=
    (holds_entry_iff (by decide)).1 (by decide +kernel)
  have near : start.up? 2 = some ⟨"q"⟩ := by decide +kernel
  have far : start.up? 3 = some ⟨""⟩ := by decide +kernel
  obtain ⟨-, -, nearest, -, hides, -⟩ := projectRoot_nearest workspace start
  have found : workspace.projectRoot start = ⟨"q"⟩ := by decide +kernel
  exact ⟨near, repository, far, configuration, hides 2 3 _ _ (by decide) near repository far, found,
    (nearest _).1 found⟩

end Workspace

end ManifestLint
