/-!
# Segments

A text cut at every occurrence of a separator. Joining the segments by the separator gives the text
back, so nothing is lost.
-/

namespace ManifestLint.Text

/-- The segments of a text between separators; there is always at least one. -/
def segments (separator : Char) : List Char → List (List Char)
  | [] => [[]]
  | c :: rest =>
    if c = separator then [] :: segments separator rest
    else
      match segments separator rest with
      | [] => [[c]]
      | segment :: others => (c :: segment) :: others

def joined (separator : Char) : List (List Char) → List Char
  | [] => []
  | [segment] => segment
  | segment :: others => segment ++ separator :: joined separator others

theorem segments_ne_nil (separator : Char) (text : List Char) : segments separator text ≠ [] := by
  cases text with
  | nil => simp [segments]
  | cons c rest => simp only [segments]; split; · simp
                   · split <;> simp

theorem joined_cons (separator : Char) (segment : List Char) {others : List (List Char)}
    (h : others ≠ []) :
    joined separator (segment :: others) = segment ++ separator :: joined separator others := by
  cases others with
  | nil => exact absurd rfl h
  | cons _ _ => rfl

theorem joined_segments (separator : Char) (text : List Char) :
    joined separator (segments separator text) = text := by
  induction text with
  | nil => rfl
  | cons c rest ih =>
    have hne := segments_ne_nil separator rest
    simp only [segments]
    split
    · next h => rw [joined_cons _ _ hne, ih, h]; rfl
    · split
      · next h => exact absurd h hne
      · next segment others h =>
        rw [h] at ih
        cases others with
        | nil => simpa [joined] using ih
        | cons _ _ => simpa [joined] using ih

end ManifestLint.Text
