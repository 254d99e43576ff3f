import Mathlib.Data.List.Forall2
import ManifestLint.Proofs.FileTree.Relocation
import ManifestLint.Proofs.Glob.Expansion

/-!
# Expansions in another place

What a pattern stands for below the working directory goes on as it does in that directory alone,
path by path and in the same order, as long as no part of the pattern leads up and no path that is
looked at is too long. Main statement: `relocated_expandSegments`.
-/

namespace ManifestLint

namespace Glob

section

variable {α β γ δ : Type} {R : α → β → Prop} {S : γ → δ → Prop}

theorem forall₂_flatMap_of_mem {f : α → List γ} {g : β → List δ} {xs : List α} {ys : List β}
    (related : List.Forall₂ R xs ys)
    (each : ∀ a b, a ∈ xs → R a b → List.Forall₂ S (f a) (g b)) :
    List.Forall₂ S (xs.flatMap f) (ys.flatMap g) :=
  List.rel_flatMap ((List.forall₂_and_left xs ys).2 ⟨fun _ mem => mem, related⟩)
    fun a b ⟨mem, pair⟩ => each a b mem pair

theorem forall₂_flatMap_self {f : α → List γ} {g : α → List δ} {xs : List α}
    (each : ∀ a ∈ xs, List.Forall₂ S (f a) (g a)) :
    List.Forall₂ S (xs.flatMap f) (xs.flatMap g) := by
  refine forall₂_flatMap_of_mem (R := Eq) (List.forall₂_same.2 fun _ _ => rfl) ?_
  rintro a _ mem rfl
  exact each a mem

end

variable {names : List (List Char)} (lead : Path.LeadDown names)
include lead

theorem relocated_below {path own : Path} (same : Path.Relocated names path own) {name : String}
    (slashless : '/' ∉ name.toList) (down : name ≠ "..") :
    Path.Relocated names (below path name) (below own name) := by
  rw [below_of_isAbsolute same.isAbsolute.1, below_of_isAbsolute same.isAbsolute.2]
  exact same.entry lead slashless down

theorem relocated_descendants {tree : FileTree} (named : tree.AllNames IsEntryName) {path own : Path}
    (same : Path.Relocated names path own) :
    List.Forall₂ (fun a b => Path.Relocated names a.1 b.1 ∧ a.2 = b.2) (descendants path tree)
      (descendants own tree) := by
  induction named generalizing path own with
  | file content => simp [descendants]
  | @directory entries entryNames trees ih =>
    rw [descendants, descendants]
    induction entries with
    | nil => simp [descendantEntries]
    | cons entry rest rest_ih =>
      obtain ⟨isName, restNames⟩ := List.forall_mem_cons.1 entryNames
      obtain ⟨-, restTrees⟩ := List.forall_mem_cons.1 trees
      obtain ⟨inside, restInside⟩ := List.forall_mem_cons.1 ih
      have next := relocated_below lead same isName.slashless isName.ne_dots.2
      rw [descendantEntries, descendantEntries]
      exact List.rel_append (.cons ⟨next, rfl⟩ (inside next)) (rest_ih restNames restTrees restInside)

omit lead

variable {workspace : Workspace} {directory : FileTree}

theorem relocated_subtree (h : workspace.StandsIn directory)
    (named : directory.AllNames IsEntryName) {path own : Path}
    (same : Path.Relocated workspace.way path own)
    (short : path.text.utf8ByteSize < Workspace.pathLimit) :
    List.Forall₂ (fun a b => Path.Relocated workspace.way a.1 b.1 ∧ a.2 = b.2)
      (subtree workspace path) (subtree (.alone directory) own) := by
  rw [subtree, subtree, h.locate_eq same short]
  cases located : (Workspace.alone directory).locate own with
  | error fault => exact .nil
  | ok tree => exact relocated_descendants h.lead (Workspace.allNames_of_locate named located) same

/-- A segment that leads up: `..`, or wildcards behind a dot that match it. -/
def Segment.LeadsUp : Segment → Prop
  | .name text => text = ['.', '.']
  | .wild tokens => ".." ∈ dotNames tokens
  | .anyDepth => False

instance : DecidablePred Segment.LeadsUp
  | .name text => inferInstanceAs (Decidable (text = ['.', '.']))
  | .wild tokens => inferInstanceAs (Decidable (".." ∈ dotNames tokens))
  | .anyDepth => .isFalse id

/-- Segments that go down only: their names hold no slash, and none of them leads up. -/
structure GoDown (segments : List Segment) : Prop where
  slashless : ∀ text, .name text ∈ segments → '/' ∉ text
  down : ∀ segment ∈ segments, ¬ segment.LeadsUp

theorem GoDown.tail {segment : Segment} {rest : List Segment} (h : GoDown (segment :: rest)) :
    GoDown rest where
  slashless text mem := h.slashless text (List.mem_cons_of_mem _ mem)
  down other mem := h.down other (List.mem_cons_of_mem _ mem)

/-- **Expansions go on alike.** Every step of an expansion goes on from a path by a name other than `..`,
so the two paths stay related, and what decides the step is found alike at both. -/
theorem relocated_expandSegments (h : workspace.StandsIn directory)
    (named : directory.AllNames IsEntryName) (directoriesOnly : Bool) :
    ∀ {segments : List Segment}, GoDown segments → ∀ {path own : Path},
      Path.Relocated workspace.way path own →
      (∀ visited, Visits workspace segments path visited →
        visited.text.utf8ByteSize < Workspace.pathLimit) →
      List.Forall₂ (Path.Relocated workspace.way)
        (expandSegments workspace directoriesOnly segments path)
        (expandSegments (.alone directory) directoriesOnly segments own)
  | [], _, path, own, same, short => by
    rw [expandSegments, expandSegments, h.holdsDirectory_eq same (short path (.here [] path))]
    generalize (directoriesOnly && !(Workspace.alone directory).holdsDirectory own) = outside
    cases outside with
    | true => exact .nil
    | false => exact .cons same .nil
  | .name text :: rest, stays, path, own, same, short => by
    have bare : '/' ∉ (String.ofList text).toList := by
      rw [String.toList_ofList]
      exact stays.slashless text List.mem_cons_self
    have down : String.ofList text ≠ ".." := by
      intro up
      refine stays.down _ List.mem_cons_self ?_
      rw [Segment.LeadsUp, ← String.toList_ofList (l := text), up]
      rfl
    have next := relocated_below h.lead same bare down
    rw [expandSegments, expandSegments, h.holdsDirectory_eq same (short path (.here _ path)),
      h.holds_eq next (short _ (.name (.here rest _)))]
    generalize (if String.ofList text = "." ∨ String.ofList text = ".." then
      (Workspace.alone directory).holdsDirectory own
      else (Workspace.alone directory).holds (below own (String.ofList text))) = found
    cases found with
    | false => exact .nil
    | true =>
      exact relocated_expandSegments h named directoriesOnly stays.tail next
        fun visited later => short visited (.name later)
  | .wild tokens :: rest, stays, path, own, same, short => by
    have here := short path (.here _ path)
    have listed := h.entriesAt_eq same here
    rw [expandSegments, expandSegments, h.holdsDirectory_eq same here]
    cases (Workspace.alone directory).holdsDirectory own with
    | false => exact .nil
    | true =>
      refine List.rel_append (forall₂_flatMap_self fun name dotted => ?_) ?_
      · -- Of the two directories that wildcards behind a dot can stand for, the one above is ruled out.
        obtain ⟨bare, down⟩ : '/' ∉ name.toList ∧ name ≠ ".." := by
          obtain ⟨rfl | rfl, -⟩ := of_mem_dotNames dotted
          · decide
          · exact absurd dotted (stays.down _ List.mem_cons_self)
        exact relocated_expandSegments h named directoriesOnly stays.tail
          (same.entry h.lead bare down) fun visited later => short visited (.dots dotted later)
      · rw [← listed]
        refine forall₂_flatMap_self fun entry mem => ?_
        have isName : IsEntryName entry.1 :=
          Workspace.allNames_entriesAt named own entry (listed ▸ mem)
        dsimp only
        split
        · next accepted =>
          exact relocated_expandSegments h named directoriesOnly stays.tail
            (relocated_below h.lead same isName.slashless isName.ne_dots.2)
            fun visited later => short visited (.wild mem accepted later)
        · exact .nil
  | [.anyDepth], _, path, own, same, short => by
    have inside := relocated_subtree h named same (short path (.here _ path))
    rw [expandSegments, expandSegments, List.forall₂_map_left_iff, List.forall₂_map_right_iff]
    refine (List.rel_filter ?_ inside).imp fun a b pair => pair.1
    rintro ⟨next, entry⟩ ⟨ownNext, _⟩ ⟨-, rfl⟩
    exact Iff.rfl
  | .anyDepth :: segment :: rest, stays, path, own, same, short => by
    rw [expandSegments, expandSegments]
    refine forall₂_flatMap_of_mem (relocated_subtree h named same (short path (.here _ path))) ?_
    rintro ⟨next, entry⟩ ⟨ownNext, _⟩ mem ⟨nextSame, rfl⟩
    dsimp only
    split
    · next accepted =>
      exact relocated_expandSegments h named directoriesOnly stays.tail.tail nextSame
        fun visited later => short visited (.deep mem accepted later)
    · exact .nil

/-! ## On the way -/

section

variable (h : workspace.StandsIn directory) {front back : List String} {segments : List Segment}
include h

/-- One more name on the way to the working directory. -/
theorem below_way {name : String} (split : workspace.workingDirectory = front ++ name :: back) :
    below (Path.absolute (front.map String.toList)) (String.ofList name.toList) =
      Path.absolute ((front ++ [name]).map String.toList) := by
  have named (other : String) (mem : other ∈ front) : IsEntryName other :=
    h.named other (split ▸ List.mem_append_left _ mem)
  have isName : IsEntryName name := h.named name (split ▸ by simp)
  rw [below_of_isAbsolute (Path.isAbsolute_absolute _), String.ofList_toList,
    (leadDown_map named).entry isName.slashless, List.map_append, List.map_singleton]

theorem visits_way (split : workspace.workingDirectory = front ++ back) {visited : Path}
    (visits : Visits workspace segments (Path.absolute workspace.way) visited) :
    Visits workspace (back.map (Segment.name ·.toList) ++ segments)
      (Path.absolute (front.map String.toList)) visited := by
  induction back generalizing front with
  | nil =>
    rw [List.append_nil] at split
    rw [← split]
    exact visits
  | cons name rest ih =>
    refine .name ?_
    rw [below_way h split]
    exact ih (by rw [split]; simp)

/-- Names on the way to the working directory lead there. -/
theorem expandSegments_way (directoriesOnly : Bool) (split : workspace.workingDirectory = front ++ back)
    (short : ∀ visited, Visits workspace (back.map (Segment.name ·.toList) ++ segments)
      (Path.absolute (front.map String.toList)) visited →
        visited.text.utf8ByteSize < Workspace.pathLimit) :
    expandSegments workspace directoriesOnly (back.map (Segment.name ·.toList) ++ segments)
        (Path.absolute (front.map String.toList)) =
      expandSegments workspace directoriesOnly segments (Path.absolute workspace.way) := by
  induction back generalizing front with
  | nil =>
    rw [List.append_nil] at split
    rw [Workspace.way, split]
    rfl
  | cons name rest ih =>
    have next := below_way h split
    have split' : workspace.workingDirectory = (front ++ [name]) ++ rest := by rw [split]; simp
    have there : workspace.holds (Path.absolute ((front ++ [name]).map String.toList)) = true := by
      refine h.holds_of_way split' (short _ (.name ?_))
      rw [next]
      exact .here _ _
    have isName : IsEntryName name := h.named name (split ▸ by simp)
    have apart : ¬ (String.ofList name.toList = "." ∨ String.ofList name.toList = "..") := by
      rw [String.ofList_toList]
      exact not_or.2 isName.ne_dots
    rw [List.map_cons, List.cons_append, expandSegments, if_neg apart, next, there, if_pos rfl]
    exact ih split' fun visited later => short visited (.name (next ▸ later))

end

/-- A pattern that is led to the working directory stands for what it stands for in that directory
alone. -/
theorem relocated_expand (h : workspace.StandsIn directory) (named : directory.AllNames IsEntryName)
    {pattern : Pattern} (stays : GoDown pattern.segments)
    (short : ∀ visited, Visits workspace (workspace.way.map .name ++ pattern.segments) ⟨"/"⟩ visited →
      visited.text.utf8ByteSize < Workspace.pathLimit) :
    List.Forall₂ (Path.Relocated workspace.way)
      (Pattern.expand ⟨true, workspace.way.map .name ++ pattern.segments, pattern.directoriesOnly⟩
        workspace)
      (Pattern.expand ⟨true, pattern.segments, pattern.directoriesOnly⟩ (.alone directory)) := by
  have split : workspace.workingDirectory = [] ++ workspace.workingDirectory := rfl
  have names : workspace.way.map Segment.name =
      workspace.workingDirectory.map (Segment.name ·.toList) := List.map_map
  rw [names] at short ⊢
  have led := expandSegments_way h pattern.directoriesOnly split short
  rw [Pattern.expand, Pattern.expand]
  refine Eq.subst (motive := fun found => List.Forall₂ _ found _) led.symm ?_
  exact relocated_expandSegments h named pattern.directoriesOnly stays
    (Path.relocated_absolute workspace.way) fun visited later => short visited (visits_way h split later)

end Glob

end ManifestLint
