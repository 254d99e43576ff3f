import ManifestLint.Text.Lines

/-!
# Cursors and characters

The lines of a text read off its characters, and the byte offsets that a cursor records for them:

* `linesFrom`: the lines of some characters, with no offset in sight;
* `Cursor.Within`: where a cursor stands in a text, said by the three parts that it cuts the text in;
* `Within.advance`: one step keeps the cursor in its text, and says which of the two readings of a
  character it took;
* `slice?_spans`, `splitLines_eq`: the slices of the recorded spans are the lines read off the
  characters, and no slice is ever missing.
-/

namespace ManifestLint.Text

/-- The lines of some characters, where `line` has been read of the first of them already. -/
def linesFrom (line : List Char) : List Char → List (List Char)
  | [] => if line = [] then [] else [line]
  | '\r' :: '\n' :: rest => line :: linesFrom [] rest
  | c :: rest => if isLineBreak c then line :: linesFrom [] rest else linesFrom (line ++ [c]) rest

theorem linesFrom_nil (line : List Char) :
    linesFrom line [] = if line = [] then [] else [line] := rfl

theorem linesFrom_cons {c : Char} {rest : List Char} (h : ∀ tail, c = '\r' → rest ≠ '\n' :: tail)
    (line : List Char) :
    linesFrom line (c :: rest) =
      if isLineBreak c then line :: linesFrom [] rest else linesFrom (line ++ [c]) rest := by
  rw [linesFrom.eq_def]
  split
  · contradiction
  · next tail he =>
    cases he
    exact absurd rfl (h tail rfl)
  · next he => cases he; rfl

/-- The part in the middle of a text, cut out by its offsets. -/
theorem slice?_middle (before middle after : String) :
    slice? (before ++ middle ++ after)
      ⟨before.utf8ByteSize, before.utf8ByteSize + middle.utf8ByteSize⟩ = some middle := by
  have first : (String.Pos.Raw.mk before.utf8ByteSize).IsValid (before ++ middle ++ after) := by
    rw [String.append_assoc]
    exact String.Pos.Raw.isValid_rawEndPos.append_right _
  have last : (String.Pos.Raw.mk (before.utf8ByteSize + middle.utf8ByteSize)).IsValid
      (before ++ middle ++ after) := by
    rw [← String.utf8ByteSize_append]
    exact String.Pos.Raw.isValid_rawEndPos.append_right _
  unfold slice?
  rw [dif_pos ⟨first, last, Nat.le_add_right _ _⟩, Option.some.injEq]
  let start : (before ++ middle ++ after).Pos := ⟨_, first⟩
  let stop : (before ++ middle ++ after).Pos := ⟨_, last⟩
  have splits : start.Splits before (middle ++ after) := ⟨String.append_assoc, rfl⟩
  have splits' : stop.Splits (before ++ middle) after := ⟨rfl, by simp [stop, String.rawEndPos]⟩
  obtain ⟨ordered, cut⟩ := String.copy_slice_eq_iff_splits.2 ⟨before, after, splits, splits'⟩
  exact (String.extract_eq_copy_slice start stop ordered).trans cut

namespace Cursor

/-- The cursor stands in a text behind `before` and `line`, of which `line` belongs to the line that
it is reading. -/
structure Within (text before line : String) (cursor : Cursor) : Prop where
  text_eq : text = before ++ line ++ String.ofList cursor.rest
  lineStart_eq : cursor.lineStart = before.utf8ByteSize
  offset_eq : cursor.offset = before.utf8ByteSize + line.utf8ByteSize

variable {text before line : String} {cursor next : Cursor} {cut : Option Span}

theorem within_atStart (text : String) : Within text "" "" (atStart text) :=
  ⟨by simp [atStart], rfl, rfl⟩

/-- A cursor stops only behind the last character. -/
theorem rest_eq_nil (h : cursor.advance? = none) : cursor.rest = [] := by
  unfold advance? at h
  split at h
  · rfl
  · cases h
  · dsimp only at h
    split at h <;> cases h

/-- One step reads a character into the line, or it reads an ending, records the span of the line
before it and goes on with an empty one. -/
theorem Within.advance (within : Within text before line cursor)
    (step : cursor.advance? = some (cut, next)) :
    (∃ c, cut = none ∧ Within text before (line.push c) next ∧
      linesFrom line.toList cursor.rest = linesFrom (line.push c).toList next.rest) ∨
    (∃ ending : String, cut = some ⟨cursor.lineStart, cursor.offset⟩ ∧
      Within text (before ++ line ++ ending) "" next ∧
      linesFrom line.toList cursor.rest = line.toList :: linesFrom [] next.rest) := by
  obtain ⟨ht, hs, ho⟩ := within
  unfold advance? at step
  split at step
  · cases step
  · next lineStart offset rest =>
    cases step
    dsimp only at ht hs ho
    refine .inr ⟨"\r\n", rfl, ⟨?_, ?_, ?_⟩, rfl⟩
    · rw [ht]; apply String.toList_injective; simp [newLine]
    · simp [newLine, ho]; rfl
    · simp [newLine, ho]; rfl
  · next lineStart offset c rest notPair =>
    dsimp only at step ht hs ho
    split at step
    · next isBreak =>
      cases step
      refine .inr ⟨String.singleton c, rfl, ⟨?_, ?_, ?_⟩, ?_⟩
      · rw [ht]; apply String.toList_injective; simp [newLine]
      · simp [newLine, ho]
      · simp [newLine, ho]
      · rw [linesFrom_cons notPair, if_pos isBreak]; rfl
    · next isBreak =>
      cases step
      refine .inl ⟨c, rfl, ⟨?_, hs, ?_⟩, ?_⟩
      · rw [ht]; apply String.toList_injective; simp
      · simp [ho, Nat.add_assoc]
      · rw [linesFrom_cons notPair, if_neg isBreak, String.toList_push]

/-- The span of the line that a cursor is reading holds what it has read of it. -/
theorem Within.slice? (within : Within text before line cursor) :
    slice? text ⟨cursor.lineStart, cursor.offset⟩ = some line := by
  rw [within.text_eq, within.lineStart_eq, within.offset_eq, slice?_middle]

/-- The slices of the spans from a cursor on are the lines from there on. -/
theorem slice?_spans (within : Within text before line cursor) :
    cursor.spans.map (Text.slice? text) =
      (linesFrom line.toList cursor.rest).map (some ∘ String.ofList) := by
  induction cursor using spans.induct generalizing before line with
  | case1 cursor stop started =>
    -- The offsets differ exactly if something has been read of the last line.
    have nonempty : line ≠ "" := by
      rintro rfl
      simp [within.lineStart_eq, within.offset_eq] at started
    rw [spans, stop, rest_eq_nil stop]
    simp [started, linesFrom_nil, nonempty, within.slice?]
  | case2 cursor stop fresh =>
    have empty : line = "" := by
      simpa [within.lineStart_eq, within.offset_eq] using fresh
    rw [spans, stop, rest_eq_nil stop]
    simp [fresh, empty, linesFrom_nil]
  | case3 cursor cut next step ih =>
    rw [spans, step]
    obtain ⟨c, rfl, grown, same⟩ | ⟨ending, rfl, fresh, first⟩ := within.advance step
    · simpa [same] using ih grown
    · simpa [first, within.slice?] using ih fresh

end Cursor

/-- No slice is missing, and the lines are those of the characters. -/
theorem splitLines_eq (text : String) :
    splitLines text = (linesFrom [] text.toList).map String.ofList := by
  have cut := Cursor.slice?_spans (Cursor.within_atStart text)
  calc splitLines text
      = ((lineSpans text).map (slice? text)).filterMap id := by
        rw [List.filterMap_map, splitLines, Function.id_comp]
    _ = ((linesFrom [] text.toList).map (some ∘ String.ofList)).filterMap id := by
        rw [lineSpans, cut]; rfl
    _ = (linesFrom [] text.toList).map String.ofList := by
        rw [List.filterMap_map, Function.id_comp, List.filterMap_eq_map]

end ManifestLint.Text
