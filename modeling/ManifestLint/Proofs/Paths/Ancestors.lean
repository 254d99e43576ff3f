import ManifestLint.Proofs.Paths.Components

/-!
# What is above a path

The path above another has its components, without the last. So the components of all that are above it
are those that it begins with, and whatever follows in it is read off its text: `..` is cut off like any
other. Main statements: `components_of_up?`, `exists_append_of_mem_ancestors`.

* `up?`: the path so many steps up, which `getElem?_ancestors` finds among the ancestors;
* `up?_eq_none`: there are no more steps up than components.
-/

namespace ManifestLint.Path

theorem ofSegment?_of_isVacuous {segment : List Char} (h : isVacuous segment = true) :
    Component.ofSegment? segment = none :=
  if_pos h

theorem filterMap_dropWhile_isVacuous (body : List (List Char)) :
    (body.dropWhile isVacuous).filterMap Component.ofSegment? =
      body.filterMap Component.ofSegment? := by
  induction body with
  | nil => rfl
  | cons segment rest ih =>
    cases vacuous : isVacuous segment with
    | true =>
      rw [List.dropWhile_cons_of_pos vacuous, ih,
        List.filterMap_cons_none (ofSegment?_of_isVacuous vacuous)]
    | false => rw [List.dropWhile_cons_of_neg (by simp [vacuous])]

/-- What is dropped stands for one component. -/
theorem filterMap_of_dropLast? {body kept : List (List Char)} (h : dropLast? body = some kept) :
    ∃ last, body.filterMap Component.ofSegment? = kept.filterMap Component.ofSegment? ++ [last] := by
  unfold dropLast? at h
  split at h
  · cases h
  · next segment rest split =>
    cases h
    have counts : isVacuous segment = false := by
      have first := List.head?_dropWhile_not isVacuous body.reverse
      rw [split] at first
      simpa using first
    obtain ⟨last, stands⟩ : ∃ last, Component.ofSegment? segment = some last := by
      unfold Component.ofSegment?
      rw [if_neg (by simp [counts])]
      split
      · exact ⟨_, rfl⟩
      · exact ⟨_, rfl⟩
    refine ⟨last, ?_⟩
    have reversed : body.reverse.filterMap Component.ofSegment? =
        last :: rest.filterMap Component.ofSegment? := by
      rw [← filterMap_dropWhile_isVacuous, split, List.filterMap_cons_some stands]
    rw [List.filterMap_reverse, filterMap_dropWhile_isVacuous, ← List.reverse_cons, ← reversed,
      List.filterMap_reverse, List.reverse_reverse]

theorem filterMap_of_dropLast?_eq_none {body : List (List Char)} (h : dropLast? body = none) :
    body.filterMap Component.ofSegment? = [] := by
  unfold dropLast? at h
  split at h
  · next nothing =>
    have reversed := filterMap_dropWhile_isVacuous body.reverse
    rw [nothing, List.filterMap_reverse] at reversed
    exact List.reverse_eq_nil_iff.1 reversed.symm
  · cases h

/-- Above a path is the one without its last component. -/
theorem components_of_parent? {path parent : Path} (above : path.parent? = some parent) :
    ∃ last, path.components = parent.components ++ [last] := by
  unfold parent? at above
  split at above
  · next kept dropped =>
    cases above
    obtain ⟨last, split⟩ := filterMap_of_dropLast? dropped
    obtain ⟨behind, whole, -⟩ := exists_append_of_dropLast? dropped
    have read : Parts.ofChars path.text.toList = ⟨path.parts.anchor, kept ++ behind⟩ := by
      rw [← whole]
      rfl
    exact ⟨last, by rw [components_toChars read, components, split, List.append_assoc]⟩
  · next bare =>
    split at above
    · next dot =>
      cases above
      exact ⟨.current, by rw [components, dot, filterMap_of_dropLast?_eq_none bare]; rfl⟩
    · cases above

/-- The path so many steps up, if there is one. -/
def up? : Nat → Path → Option Path
  | 0, path => some path
  | steps + 1, path => path.parent?.bind (up? steps)

/-- Each step up takes the last component away. -/
theorem components_of_up? {steps : Nat} {path place : Path} (h : path.up? steps = some place) :
    ∃ rest, path.components = place.components ++ rest ∧ rest.length = steps := by
  induction steps generalizing path with
  | zero =>
    cases h
    exact ⟨[], (List.append_nil _).symm, rfl⟩
  | succ steps ih =>
    obtain ⟨parent, above, further⟩ := Option.bind_eq_some_iff.1 h
    obtain ⟨last, split⟩ := components_of_parent? above
    obtain ⟨rest, whole, count⟩ := ih further
    refine ⟨rest ++ [last], by rw [split, whole, List.append_assoc], ?_⟩
    rw [List.length_append, count, List.length_singleton]

/-- No path comes up twice. -/
theorem up?_unique {path place : Path} {once steps : Nat} (h : path.up? once = some place)
    (again : path.up? steps = some place) : once = steps := by
  obtain ⟨rest, whole, count⟩ := components_of_up? h
  obtain ⟨other, wholeAgain, countAgain⟩ := components_of_up? again
  have same : rest = other := List.append_cancel_left (whole.symm.trans wholeAgain)
  rw [← count, ← countAgain, same]

theorem up?_eq_none {path : Path} {steps : Nat} (h : path.components.length < steps) :
    path.up? steps = none := by
  cases found : path.up? steps with
  | none => rfl
  | some place =>
    obtain ⟨rest, whole, count⟩ := components_of_up? found
    rw [whole, List.length_append] at h
    omega

theorem getElem?_ancestors (path : Path) (steps : Nat) : path.ancestors[steps]? = path.up? steps := by
  induction steps generalizing path with
  | zero =>
    rw [ancestors]
    rfl
  | succ steps ih =>
    rw [ancestors, List.getElem?_cons_succ, up?]
    split
    · next top => rw [top]; rfl
    · next parent above => rw [above, Option.bind_some, ih]

theorem mem_ancestors_iff {path place : Path} :
    place ∈ path.ancestors ↔ ∃ steps, path.up? steps = some place := by
  simp only [List.mem_iff_getElem?, getElem?_ancestors]

/-- A path begins with the components of each path above it. -/
theorem exists_append_of_mem_ancestors {path ancestor : Path} (mem : ancestor ∈ path.ancestors) :
    ∃ rest, path.components = ancestor.components ++ rest := by
  obtain ⟨steps, above⟩ := mem_ancestors_iff.1 mem
  obtain ⟨rest, whole, -⟩ := components_of_up? above
  exact ⟨rest, whole⟩

end ManifestLint.Path
