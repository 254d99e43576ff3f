import ManifestLint.Path.Basic

/-!
# Ancestors of a path

A path, the path without its last component, and so on until there is none. Each text is shorter
than the one before it, so the chain ends.
-/

namespace ManifestLint.Path

theorem toChars_ofChars (text : List Char) : (Parts.ofChars text).toChars = text := by
  have h := Text.joined_segments '/' text
  unfold Parts.ofChars
  split
  · next hs => rw [hs] at h; exact h
  · next first body hs =>
    rw [hs] at h
    split
    · next hf =>
      subst hf
      cases body with
      | nil => exact h
      | cons second rest => simpa [Parts.toChars, Component.text, Text.joined] using h
    · split
      · next hf =>
        obtain ⟨rfl, hb⟩ := hf
        rw [Text.joined_cons _ _ hb] at h
        exact h
      · exact h

/-- How long the segments are together with a slash before each. -/
def bodyLength : List (List Char) → Nat
  | [] => 0
  | segment :: rest => segment.length + 1 + bodyLength rest

theorem length_joined_succ {body : List (List Char)} (h : body ≠ []) :
    (Text.joined '/' body).length + 1 = bodyLength body := by
  induction body with
  | nil => exact absurd rfl h
  | cons first rest ih =>
    cases rest with
    | nil => simp [Text.joined, bodyLength]
    | cons second others =>
      have := ih (by simp)
      simp only [Text.joined, List.length_append, List.length_cons, bodyLength] at this ⊢
      omega

theorem bodyLength_append (a b : List (List Char)) :
    bodyLength (a ++ b) = bodyLength a + bodyLength b := by
  induction a with
  | nil => simp [bodyLength]
  | cons segment rest ih =>
    simp only [List.cons_append, bodyLength, ih]
    omega

/-- What is dropped holds a segment that is not empty. -/
theorem exists_append_of_dropLast? {body kept : List (List Char)} (h : dropLast? body = some kept) :
    ∃ dropped, body = kept ++ dropped ∧ 2 ≤ bodyLength dropped := by
  unfold dropLast? at h
  split at h
  · cases h
  · next last rest hr =>
    cases h
    have hlast : last ≠ [] := by
      intro he
      have := List.head?_dropWhile_not isVacuous body.reverse
      rw [hr] at this
      simp [he, isVacuous] at this
    have h1 := List.takeWhile_append_dropWhile (p := isVacuous) (l := body.reverse)
    have h2 := List.takeWhile_append_dropWhile (p := isVacuous) (l := rest)
    refine ⟨((body.reverse.takeWhile isVacuous) ++ last :: rest.takeWhile isVacuous).reverse, ?_, ?_⟩
    · rw [← List.reverse_append, List.append_assoc, List.cons_append, h2, ← hr, h1,
        List.reverse_reverse]
    · have : 1 ≤ last.length := List.length_pos_iff.2 hlast
      simp only [List.reverse_append, List.reverse_cons, bodyLength_append, bodyLength]
      omega

theorem length_toChars_lt (anchor : Option Component) {body kept : List (List Char)}
    (h : dropLast? body = some kept) :
    (Parts.toChars ⟨anchor, kept⟩).length < (Parts.toChars ⟨anchor, body⟩).length := by
  obtain ⟨dropped, rfl, hd⟩ := exists_append_of_dropLast? h
  have hne : kept ++ dropped ≠ [] := by
    intro he
    have := (List.append_eq_nil_iff.1 he).2
    simp [this, bodyLength] at hd
  have hall := length_joined_succ hne
  rw [bodyLength_append] at hall
  have hkept : (Text.joined '/' kept).length < (Text.joined '/' (kept ++ dropped)).length := by
    by_cases hk : kept = []
    · subst hk
      simp only [Text.joined, List.length_nil, List.nil_append, bodyLength] at hall ⊢
      omega
    · have := length_joined_succ hk
      omega
  cases anchor with
  | none => exact hkept
  | some first =>
    cases first
    case root => simpa [Parts.toChars] using hkept
    all_goals
      simp only [Parts.toChars, hne, if_false]
      split <;> (simp only [List.length_append, List.length_cons]; omega)

theorem length_parent?_lt {path parent : Path} (h : path.parent? = some parent) :
    parent.text.length < path.text.length := by
  have hround := toChars_ofChars path.text.toList
  have hlen : path.text.length = (Parts.ofChars path.text.toList).toChars.length := by
    rw [hround, String.length_toList]
  unfold parent? at h
  split at h
  · next body hb =>
    cases h
    have := length_toChars_lt path.parts.anchor hb
    rw [hlen]
    simpa [parts, String.length_ofList] using this
  · split at h
    · next ha =>
      cases h
      rw [hlen]
      simp only [parts] at ha
      unfold Parts.toChars
      rw [ha]
      simp only [String.length_empty, Component.text]
      split
      · decide
      · simp
    · cases h

/-- A path and those above it, nearest first. -/
def ancestors (path : Path) : List Path :=
  path ::
    match _h : path.parent? with
    | none => []
    | some parent => ancestors parent
termination_by path.text.length
decreasing_by exact length_parent?_lt _h

end ManifestLint.Path
