import Mathlib.Data.List.Induction
import ManifestLint.Proofs.Paths.Labels

/-!
# The way between two paths

A label can be worked out by walking the components of a path and of the root side by side: what they
have in common is left out, each component of the root that is left over is a step up, and what is left
of the path follows. A way that begins by going up is not shown, and there is none out of a `..` of the
root.

* `append_of_wayBetween`, `wayBetween_append`: such a walk goes down exactly where the path goes on from
  the root;
* `labelByWay_eq`: labels are what such a walk gives;
* `label_points_back`: a root goes on by the label of an absolute path to that path.
-/

namespace ManifestLint.Path

/-- Walks a path and a base side by side, by their components, and gathers the way from the end of the
base to the end of the path. -/
def wayBetween (gathered : List Component) :
    List Component → List Component → Option (List Component)
  | [], [] => some gathered
  | a :: path, [] => some (gathered ++ a :: path)
  | [], _ :: base => wayBetween (gathered ++ [.parent]) [] base
  | a :: path, b :: base =>
    if gathered = [] ∧ a = b then wayBetween gathered path base
    else if b = .current then wayBetween (gathered ++ [a]) path base
    else if b = .parent then none
    else some (gathered ++ .parent :: base.map (fun _ => .parent) ++ a :: path)

/-- The path that goes on by some components, one after another. -/
def ofComponents (way : List Component) : Path :=
  way.foldl (fun path component => path.join ⟨component.text⟩) ⟨""⟩

/-- The way from a base to an absolute path, if there is one. -/
def difference? (base path : Path) : Option Path :=
  if base.isAbsolute then (wayBetween [] path.components base.components).map ofComponents
  else some path

/-- The label of a path, worked out from the way that leads there from the root. -/
def labelByWay (root path : Path) : String :=
  if path.isAbsolute then
    match difference? root path with
    | some way => if way.components.head? = some .parent then path.text else way.text
    | none => path.text
  else path.text

/-! ## Walking side by side -/

section

variable {gathered path base way : List Component}

/-- What was gathered stays at the start of the way. -/
theorem prefix_of_wayBetween (h : wayBetween gathered path base = some way) : gathered <+: way := by
  fun_induction wayBetween gathered path base with
  | case1 => cases h; exact List.prefix_rfl
  | case2 => cases h; exact List.prefix_append _ _
  | case3 gathered _ base ih => exact (List.prefix_append _ _).trans (ih h)
  | case4 gathered a path b base same ih => exact ih h
  | case5 gathered a path base differ ih => exact (List.prefix_append _ _).trans (ih h)
  | case6 => cases h
  | case7 =>
    cases h
    rw [List.append_assoc]
    exact List.prefix_append _ _

/-- A way is made of steps up and of components of the path. -/
theorem mem_of_wayBetween (h : wayBetween gathered path base = some way) :
    ∀ component ∈ way, component ∈ gathered ∨ component = .parent ∨ component ∈ path := by
  fun_induction wayBetween gathered path base with
  | case1 => cases h; exact fun _ mem => .inl mem
  | case2 =>
    cases h
    intro component mem
    exact (List.mem_append.1 mem).imp id .inr
  | case3 gathered _ base ih => grind
  | case4 gathered a path b base same ih => grind
  | case5 gathered a path base differ ih => grind
  | case6 => cases h
  | case7 => grind

theorem wayBetween_append (base rest : List Component) :
    wayBetween [] (base ++ rest) base = some rest := by
  induction base with
  | nil => cases rest <;> rfl
  | cons component base ih =>
    rw [List.cons_append, wayBetween, if_pos ⟨rfl, rfl⟩]
    exact ih

/-- A way that does not begin by going up goes on from the base. -/
theorem append_of_wayBetween (entered : .current ∉ base) (h : wayBetween [] path base = some way)
    (down : way.head? ≠ some .parent) : path = base ++ way := by
  induction base generalizing path with
  | nil =>
    cases path with
    | nil => cases h; rfl
    | cons a path => cases h; rfl
  | cons b base ih =>
    obtain ⟨here, later⟩ := not_or.1 (mt List.mem_cons.2 entered)
    cases path with
    | nil =>
      rw [wayBetween] at h
      obtain ⟨rest, rfl⟩ := prefix_of_wayBetween h
      exact absurd rfl down
    | cons a path =>
      rw [wayBetween] at h
      split at h
      · next same =>
        rw [ih later h, same.2]
        rfl
      · rw [if_neg (Ne.symm here)] at h
        split at h
        · cases h
        · cases h
          exact absurd rfl down

end

/-! ## Writing a way -/

theorem wayText_concat {way : List Component} (present : way ≠ []) (last : Component) :
    wayText (way ++ [last]) = wayText way ++ '/' :: last.text.toList := by
  rw [wayText, List.map_append, Text.joined_append (by simpa using present) (by simp)]
  rfl

/-- A way does not end in a slash. -/
theorem getLast?_wayText {way : List Component} (steps : ∀ component ∈ way, component.IsStep)
    (present : way ≠ []) : ∃ c, (wayText way).getLast? = some c ∧ c ≠ '/' := by
  obtain ⟨front, last, rfl⟩ : ∃ front last, way = front ++ [last] :=
    ⟨_, _, (List.dropLast_concat_getLast present).symm⟩
  have step := steps last (by simp)
  have full : last.text.toList ≠ [] := by
    intro empty
    have counts := step.not_vacuous
    rw [empty] at counts
    exact absurd counts (by decide)
  have final := List.getLast?_eq_some_getLast full
  refine ⟨last.text.toList.getLast full, ?_, ?_⟩
  · by_cases single : front = []
    · subst single
      exact final
    · rw [wayText_concat single, List.getLast?_append, List.getLast?_cons, final]
      rfl
  · intro slash
    exact step.slashless (slash ▸ List.getLast_mem full)

/-- A path that goes on by steps is written with their texts. -/
theorem ofComponents_eq {way : List Component} (steps : ∀ component ∈ way, component.IsStep) :
    ofComponents way = ⟨String.ofList (wayText way)⟩ := by
  induction way using List.reverseRecOn with
  | nil => decide
  | append_singleton front last ih =>
    have before := ih fun component mem => steps component (List.mem_append_left _ mem)
    have relative : (Path.mk last.text).isAbsolute = false :=
      isAbsolute_of_slashless (steps last (by simp)).slashless
    rw [ofComponents, List.foldl_append, ← ofComponents, before, List.foldl_cons, List.foldl_nil]
    refine ext_toList ?_
    rw [String.toList_ofList]
    by_cases single : front = []
    · subst single
      rw [join, if_neg (by simp [relative]), if_pos (by simp [wayText, Text.joined])]
      simp [wayText, Text.joined]
    · obtain ⟨c, ends, other⟩ := getLast?_wayText
        (fun component mem => steps component (List.mem_append_left _ mem)) single
      rw [toList_join relative c (by rw [String.toList_ofList, ends]), if_neg other,
        wayText_concat single, String.toList_ofList]

/-! ## Labels -/

section

variable {root path : Path} {way : List Component}

/-- A way down is what walking side by side gives. -/
theorem wayBetween_of_below? (below : below? root path = some way) :
    wayBetween [] path.components root.components = some way := by
  obtain ⟨-, split, -⟩ := below?_eq_some_iff.1 below
  rw [split]
  exact wayBetween_append _ _

/-- Between absolute paths a way is made of steps, and it climbs unless the path goes on from the
root. -/
theorem wayBetween_cases (rooted : root.isAbsolute = true) (anchored : path.isAbsolute = true)
    (walked : wayBetween [] path.components root.components = some way) :
    (∀ component ∈ way, component.IsStep) ∧
      (way.head? = some .parent ∨ below? root path = some way) := by
  obtain ⟨start, hr, startSteps⟩ := components_of_isAbsolute rooted
  obtain ⟨steps, hp, pathSteps⟩ := components_of_isAbsolute anchored
  rw [hr, hp, wayBetween, if_pos ⟨rfl, rfl⟩] at walked
  constructor
  · intro component mem
    obtain mem | rfl | mem := mem_of_wayBetween walked component mem
    · cases mem
    · exact isStep_parent
    · exact pathSteps component mem
  · by_cases climbs : way.head? = some .parent
    · exact .inl climbs
    · have entered : Component.current ∉ start := fun mem => (startSteps _ mem).ne_current rfl
      refine .inr (below?_eq_some_iff.2 ⟨⟨rooted, anchored⟩, ?_, climbs⟩)
      rw [hr, hp, append_of_wayBetween entered walked climbs]
      rfl

/-- A path that is not reached by going down is labelled by its text. -/
theorem label_of_climbs (climbs : ∀ way, wayBetween [] path.components root.components = some way →
    way.head? = some .parent) : root.label path = path.text := by
  obtain ⟨way, below, -⟩ | ⟨-, own⟩ := label_cases root path
  · have down := (below?_eq_some_iff.1 below).2.2
    exact absurd (climbs way (wayBetween_of_below? below)) down
  · exact own

/-- Between absolute paths a label is the way that walking side by side gives, if that goes down. -/
theorem label_eq_of_isAbsolute (rooted : root.isAbsolute = true) (anchored : path.isAbsolute = true) :
    root.label path =
      match (wayBetween [] path.components root.components).map ofComponents with
      | some way => if way.components.head? = some .parent then path.text else way.text
      | none => path.text := by
  cases walked : wayBetween [] path.components root.components with
  | none => exact label_of_climbs fun way found => by rw [walked] at found; cases found
  | some way =>
    obtain ⟨steps, turns⟩ := wayBetween_cases rooted anchored walked
    rw [Option.map_some]
    dsimp only
    rw [ofComponents_eq steps, components_wayText steps]
    obtain climbs | below := turns
    · rw [if_pos climbs]
      exact label_of_climbs fun other found => by rw [walked] at found; cases found; exact climbs
    · rw [if_neg (below?_eq_some_iff.1 below).2.2, label_of_below? below]

end

/-- Labels are what walking side by side gives. -/
theorem labelByWay_eq (root path : Path) : root.labelByWay path = root.label path := by
  unfold labelByWay difference?
  cases anchored : path.isAbsolute with
  | false => exact (label_of_relative anchored).symm
  | true =>
    rw [if_pos rfl]
    cases rooted : root.isAbsolute with
    | true => exact (label_eq_of_isAbsolute rooted anchored).symm
    | false =>
      -- There is no way from a relative root, so the path stands for itself.
      have elsewhere : below? root path = none := by
        rw [below?, rooted]
        rfl
      rw [label, elsewhere]
      exact ite_self _

/-- The segments that a way is written with stand for its components. -/
theorem filterMap_segments_wayText {way : List Component}
    (steps : ∀ component ∈ way, component.IsStep) :
    (Text.segments '/' (wayText way)).filterMap Component.ofSegment? = way := by
  by_cases empty : way = []
  · subst empty
    decide
  · have slashless : ∀ part ∈ way.map (·.text.toList), '/' ∉ part := by
      intro part mem
      obtain ⟨component, onWay, rfl⟩ := List.mem_map.1 mem
      exact (steps component onWay).slashless
    rw [wayText, Text.segments_joined (by simpa using empty) slashless, filterMap_texts steps]

/-- A root goes on by the label of an absolute path to that path. -/
theorem components_join_label (root : Path) {path : Path} (anchored : path.isAbsolute = true) :
    (root.join ⟨root.label path⟩).components = path.components := by
  obtain ⟨way, below, written⟩ | ⟨-, own⟩ := label_cases root path
  · obtain ⟨⟨rooted, -⟩, split, -⟩ := below?_eq_some_iff.1 below
    have steps := isStep_of_below? below
    have relative : (Path.mk (root.label path)).isAbsolute = false := by
      rw [isAbsolute, written, beq_eq_false_iff_ne]
      exact head?_wayText steps
    rw [components_join rooted relative, written, filterMap_segments_wayText steps, split]
  · rw [own, join, if_pos anchored]

/-- **A label points back to its path.** A root goes on by the label of an absolute path to a path with
the same components, so two absolute paths with one label have the same components. Where both are
absolute, and the path goes on from the root otherwise than by going up, the label is that way, written
with slashes; in every other case it is the text of the path. That is what walking both side by side
gives. -/
theorem label_points_back (root path : Path) :
    (path.isAbsolute = true → (root.join ⟨root.label path⟩).components = path.components) ∧
    (∀ other : Path, path.isAbsolute = true → other.isAbsolute = true →
      root.label path = root.label other → path.components = other.components) ∧
    (∀ way, root.isAbsolute = true → path.isAbsolute = true →
      path.components = root.components ++ way → way.head? ≠ some .parent →
        root.label path = "/".intercalate (way.map Component.text)) ∧
    ((¬ ∃ way, root.isAbsolute = true ∧ path.isAbsolute = true ∧
        path.components = root.components ++ way ∧ way.head? ≠ some .parent) →
      root.label path = path.text) ∧
    root.labelByWay path = root.label path := by
  refine ⟨components_join_label root, fun other => components_eq_of_label_eq, ?_, ?_,
    labelByWay_eq root path⟩
  · intro way rooted anchored split down
    rw [label_of_below? (below?_eq_some_iff.2 ⟨⟨rooted, anchored⟩, split, down⟩), ← String.toList_inj,
      String.toList_intercalate, String.toList_ofList, wayText, List.map_map]
    exact (Text.intercalate_eq_joined _).symm
  · intro outside
    obtain ⟨way, below, -⟩ | ⟨-, own⟩ := label_cases root path
    · obtain ⟨⟨rooted, anchored⟩, split, down⟩ := below?_eq_some_iff.1 below
      exact absurd ⟨way, rooted, anchored, split, down⟩ outside
    · exact own

/-- A directory whose name begins with two dots, below a root that is not written in the shortest way, and
next to it a path that leaves the root. -/
theorem label_points_back_dotted :
    let root : Path := ⟨"/srv/./project/"⟩
    root.label ⟨"/srv//project/..cfg/Dockerfile"⟩ = "..cfg/Dockerfile" ∧
      (root.join ⟨"..cfg/Dockerfile"⟩).components =
        (Path.mk "/srv//project/..cfg/Dockerfile").components ∧
      root.label ⟨"/srv/project/../Dockerfile"⟩ = "/srv/project/../Dockerfile" ∧
      (Path.mk "/srv//project/..cfg/Dockerfile").components =
        (Path.mk "/srv/project/..cfg/./Dockerfile").components := by
  intro root
  obtain ⟨back, apart, down, -⟩ := label_points_back root ⟨"/srv//project/..cfg/Dockerfile"⟩
  obtain ⟨-, -, -, own, -⟩ := label_points_back root ⟨"/srv/project/../Dockerfile"⟩
  have label : root.label ⟨"/srv//project/..cfg/Dockerfile"⟩ = "..cfg/Dockerfile" :=
    (down [.name "..cfg", .name "Dockerfile"] (by decide) (by decide) (by decide +kernel)
      (by decide)).trans (by decide +kernel)
  refine ⟨label, label ▸ back (by decide), own ?_, ?_⟩
  · rintro ⟨way, -, -, split, down⟩
    have behind : way = [.parent, .name "Dockerfile"] := by
      have : (Path.mk "/srv/project/../Dockerfile").components =
          root.components ++ [.parent, .name "Dockerfile"] := by decide +kernel
      exact List.append_cancel_left (split.symm.trans this)
    exact down (by rw [behind]; rfl)
  · exact apart ⟨"/srv/project/..cfg/./Dockerfile"⟩ (by decide) (by decide) (by decide +kernel)

end ManifestLint.Path
