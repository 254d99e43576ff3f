import ManifestLint.Proofs.Paths.Components

/-!
# What labels tell

A label is the way down from the root of the project to a path, or the text of the path itself. Among
absolute paths it tells the components. A relative path is labelled by its text, so it can have the
label of an absolute one; then the root goes on by the relative path to the absolute one.

* `below?_eq_some_iff`: when there is a way down;
* `components_eq_of_label_eq`: absolute paths with one label have the same components;
* `components_eq_of_label_eq_relative`: what an absolute path is that has the label of a relative one.
-/

namespace ManifestLint.Path

theorem after?_eq_some_iff {start components rest : List Component} :
    after? start components = some rest ↔ components = start ++ rest := by
  induction start generalizing components with
  | nil => simp [after?]
  | cons a start ih =>
    cases components with
    | nil => simp [after?]
    | cons b components =>
      rw [after?]
      split
      · next h => rw [ih, h, List.cons_append, List.cons.injEq]; simp
      · next h => simp [Ne.symm h]

theorem below?_eq_some_iff {root path : Path} {way : List Component} :
    below? root path = some way ↔
      (root.isAbsolute = true ∧ path.isAbsolute = true) ∧
        path.components = root.components ++ way ∧ way.head? ≠ some .parent := by
  unfold below?
  rw [← after?_eq_some_iff]
  split
  · next h =>
    rw [Bool.and_eq_true] at h
    split
    · next up rest hw =>
      constructor
      · intro none
        cases none
      · rintro ⟨-, same, climbs⟩
        rw [hw] at same
        cases same
        exact absurd rfl climbs
    · next climbs =>
      refine ⟨fun same => ⟨h, same, ?_⟩, fun found => found.2.1⟩
      cases way with
      | nil => simp
      | cons first rest =>
        intro up
        cases up
        exact climbs rest same
  · next h =>
    rw [Bool.and_eq_true] at h
    simp [h]

/-- A way down is made of steps. -/
theorem isStep_of_below? {root path : Path} {way : List Component}
    (h : below? root path = some way) : ∀ component ∈ way, component.IsStep := by
  obtain ⟨⟨hr, hp⟩, split, -⟩ := below?_eq_some_iff.1 h
  obtain ⟨start, -, startSlashless, rfl⟩ := exists_eq_absolute hr
  obtain ⟨segments, -, slashless, rfl⟩ := exists_eq_absolute hp
  rw [components_absolute slashless, components_absolute startSlashless, List.cons_append,
    List.cons.injEq] at split
  intro component mem
  refine isStep_of_mem_filterMap slashless ?_
  rw [split.2]
  exact List.mem_append_right _ mem

/-- A label is written for the way down, or it is the text of the path. -/
theorem label_cases (root path : Path) :
    (∃ way, below? root path = some way ∧ (root.label path).toList = wayText way) ∨
      below? root path = none ∧ root.label path = path.text := by
  unfold label
  cases h : below? root path with
  | none => exact .inr ⟨rfl, rfl⟩
  | some way => exact .inl ⟨way, rfl, String.toList_ofList⟩

theorem label_of_below? {root path : Path} {way : List Component} (down : below? root path = some way) :
    root.label path = String.ofList (wayText way) := by
  rw [label, down]
  rfl

theorem label_of_relative {root path : Path} (h : path.isAbsolute = false) :
    root.label path = path.text := by
  obtain ⟨way, down, -⟩ | ⟨-, same⟩ := label_cases root path
  · have := (below?_eq_some_iff.1 down).1.2
    rw [h] at this
    cases this
  · exact same

/-- The text of a way down is not that of an absolute path. -/
theorem wayText_ne {root path other : Path} {way : List Component} (h : below? root path = some way)
    (absolute : other.isAbsolute = true) : wayText way ≠ other.text.toList := by
  obtain ⟨rest, hr⟩ := isAbsolute_iff.1 absolute
  intro same
  have first := head?_wayText (isStep_of_below? h)
  rw [same, hr] at first
  exact first rfl

/-- Two absolute paths with one label have the same components. -/
theorem components_eq_of_label_eq {root a b : Path} (ha : a.isAbsolute = true)
    (hb : b.isAbsolute = true) (same : root.label a = root.label b) :
    a.components = b.components := by
  obtain ⟨way, down, written⟩ | ⟨-, own⟩ := label_cases root a <;>
    obtain ⟨way', down', written'⟩ | ⟨-, own'⟩ := label_cases root b
  · have ways : way = way' := by
      rw [← components_wayText (isStep_of_below? down), ← written, same, written',
        components_wayText (isStep_of_below? down')]
    rw [(below?_eq_some_iff.1 down).2.1, (below?_eq_some_iff.1 down').2.1, ways]
  · rw [same, own'] at written
    exact absurd written.symm (wayText_ne down hb)
  · rw [← same, own] at written'
    exact absurd written'.symm (wayText_ne down' ha)
  · rw [own, own'] at same
    rw [ext_toList (congrArg String.toList same)]

/-- An absolute path with the label of a relative one is where the root goes on by that one. -/
theorem components_eq_of_label_eq_relative {root a b : Path} (ha : a.isAbsolute = false)
    (hb : b.isAbsolute = true) (same : root.label a = root.label b) :
    b.components = root.components ++ a.components := by
  rw [label_of_relative ha] at same
  obtain ⟨way, down, written⟩ | ⟨-, own⟩ := label_cases root b
  · have steps : a.components = way := by
      have text : a = ⟨String.ofList (wayText way)⟩ := by
        rw [← written, ← same, String.ofList_toList]
      rw [text, components_wayText (isStep_of_below? down)]
    rw [(below?_eq_some_iff.1 down).2.1, steps]
  · obtain ⟨rest, hr⟩ := isAbsolute_iff.1 hb
    rw [isAbsolute, same, own, hr] at ha
    cases ha

end ManifestLint.Path
