import Mathlib.Logic.Relation
import ManifestLint.Proofs.Lines.Cursor

/-!
# Offsets of a cursor

A character takes one to four bytes, so a byte offset can fall inside one, and what begins or ends there
is no slice of the text. A cursor never comes to such an offset. Main statement:
`splitLines_cuts_between_characters`.

* `Cursor.Advances`: one step of reading; a run is its closure;
* `advance?_cases`: all that a step does to the offsets, whatever the text;
* `Cursor.InBounds`: both offsets fall between characters of the text, and what is unread lies behind them;
* `exists_within`, `Within.inBounds`: a run through a text stays within these bounds;
* `lineStart_le_of_run`: no run goes back.
-/

namespace ManifestLint.Text

/-- There is a slice just between two places that are not inside a character, in their order. -/
theorem exists_slice?_iff {text : String} {span : Span} :
    (∃ part, slice? text span = some part) ↔ (String.Pos.Raw.mk span.start).IsValid text ∧
      (String.Pos.Raw.mk span.stop).IsValid text ∧ span.start ≤ span.stop := by
  unfold slice?
  split
  · next valid => exact ⟨fun _ => valid, fun _ => ⟨_, rfl⟩⟩
  · next invalid => exact ⟨fun ⟨_, cut⟩ => absurd cut nofun, fun valid => absurd valid invalid⟩

example : slice? "é" ⟨0, 1⟩ = none ∧ slice? "é" ⟨0, 2⟩ = some "é" ∧ slice? "é" ⟨0, 3⟩ = none := by
  decide +kernel

namespace Cursor

open Relation

/-- One step of reading leads from the one cursor to the other. -/
def Advances (cursor next : Cursor) : Prop := ∃ cut, cursor.advance? = some (cut, next)

/-- Both offsets fall between characters of the text, the first not behind the second, and the characters
that are still to be read are those behind the second. -/
structure InBounds (text : String) (cursor : Cursor) : Prop where
  lineStart_le : cursor.lineStart ≤ cursor.offset
  offset_le : cursor.offset ≤ text.utf8ByteSize
  lineStart_isValid : (String.Pos.Raw.mk cursor.lineStart).IsValid text
  offset_isValid : (String.Pos.Raw.mk cursor.offset).IsValid text
  unread : slice? text ⟨cursor.offset, text.utf8ByteSize⟩ = some (String.ofList cursor.rest)

variable {text before line : String} {cursor next later : Cursor} {cut : Option Span} {span : Span}

/-- A step moves the offset on. Either the line goes on, or it is recorded up to the old offset and the
next line begins at the new one. -/
theorem advance?_cases (step : cursor.advance? = some (cut, next)) :
    cursor.offset < next.offset ∧
      (cut = none ∧ next.lineStart = cursor.lineStart ∨
        cut = some ⟨cursor.lineStart, cursor.offset⟩ ∧ next.lineStart = next.offset) := by
  unfold advance? at step
  split at step
  · cases step
  · cases step
    exact ⟨by simp [newLine], .inr ⟨rfl, rfl⟩⟩
  · next lineStart offset c rest _ =>
    have moved : offset < offset + c.utf8Size := Nat.lt_add_of_pos_right c.utf8Size_pos
    dsimp only at step
    split at step
    · cases step
      exact ⟨moved, .inr ⟨rfl, rfl⟩⟩
    · cases step
      exact ⟨moved, .inl ⟨rfl, rfl⟩⟩

/-- Every run comes to an end. -/
theorem exists_last (cursor : Cursor) :
    ∃ last, ReflTransGen Advances cursor last ∧ last.advance? = none := by
  induction cursor using spans.induct with
  | case1 cursor stop _ => exact ⟨cursor, .refl, stop⟩
  | case2 cursor stop _ => exact ⟨cursor, .refl, stop⟩
  | case3 cursor cut next step ih =>
    obtain ⟨last, run, stop⟩ := ih
    exact ⟨last, run.head ⟨cut, step⟩, stop⟩

/-- Each span is recorded by a cursor of the run, between the two offsets that it has there. -/
theorem exists_run_of_mem_spans (recorded : span ∈ cursor.spans) :
    ∃ later, ReflTransGen Advances cursor later ∧ span = ⟨later.lineStart, later.offset⟩ := by
  induction cursor using spans.induct with
  | case1 cursor stop started =>
    rw [spans, stop] at recorded
    exact ⟨cursor, .refl, by simpa [started] using recorded⟩
  | case2 cursor stop fresh =>
    rw [spans, stop] at recorded
    simp [fresh] at recorded
  | case3 cursor cut next step ih =>
    rw [spans, step, List.mem_append, Option.mem_toList] at recorded
    obtain here | behind := recorded
    · obtain ⟨-, ⟨rfl, -⟩ | ⟨rfl, -⟩⟩ := advance?_cases step
      · cases here
      · cases here
        exact ⟨cursor, .refl, rfl⟩
    · obtain ⟨later, run, same⟩ := ih behind
      exact ⟨later, run.head ⟨cut, step⟩, same⟩

/-- Along a run no line begins before an earlier one, or behind what has been read. -/
theorem lineStart_le_of_run (ordered : cursor.lineStart ≤ cursor.offset)
    (run : ReflTransGen Advances cursor later) :
    cursor.lineStart ≤ later.lineStart ∧ later.lineStart ≤ later.offset := by
  induction run with
  | refl => exact ⟨Nat.le_refl _, ordered⟩
  | tail _ step ih =>
    obtain ⟨cut, step⟩ := step
    obtain ⟨moved, ⟨-, same⟩ | ⟨-, fresh⟩⟩ := advance?_cases step <;> omega

/-- A run from the start of a text stays in it. -/
theorem exists_within (run : ReflTransGen Advances (atStart text) cursor) :
    ∃ before line, Within text before line cursor := by
  induction run with
  | refl => exact ⟨"", "", within_atStart text⟩
  | tail _ step ih =>
    obtain ⟨before, line, within⟩ := ih
    obtain ⟨cut, step⟩ := step
    obtain ⟨c, -, grown, -⟩ | ⟨ending, -, fresh, -⟩ := within.advance step
    · exact ⟨before, line.push c, grown⟩
    · exact ⟨before ++ line ++ ending, "", fresh⟩

/-- The offsets of a cursor in a text are the lengths of what it has read, and so they part it. -/
theorem Within.inBounds (within : Within text before line cursor) : InBounds text cursor := by
  have unread : Text.slice? text ⟨cursor.offset, text.utf8ByteSize⟩ = some (String.ofList cursor.rest) := by
    have behind := slice?_middle (before ++ line) (String.ofList cursor.rest) ""
    rwa [String.append_empty, ← String.utf8ByteSize_append, ← within.text_eq,
      String.utf8ByteSize_append, ← within.offset_eq] at behind
  obtain ⟨lineStart_isValid, offset_isValid, ordered⟩ := exists_slice?_iff.1 ⟨line, within.slice?⟩
  obtain ⟨-, -, bounded⟩ := exists_slice?_iff.1 ⟨_, unread⟩
  exact ⟨ordered, bounded, lineStart_isValid, offset_isValid, unread⟩

/-- A run stops at the end of its text and nowhere else. -/
theorem advance?_eq_none_iff (run : ReflTransGen Advances (atStart text) cursor) :
    cursor.advance? = none ↔ cursor.offset = text.utf8ByteSize := by
  constructor
  · intro stop
    obtain ⟨before, line, within⟩ := exists_within run
    rw [within.text_eq, rest_eq_nil stop, within.offset_eq]
    simp
  · intro atEnd
    cases step : cursor.advance? with
    | none => rfl
    | some result =>
      obtain ⟨cut, next⟩ := result
      obtain ⟨before, line, within⟩ := exists_within (run.tail ⟨cut, step⟩)
      have bounded := within.inBounds.offset_le
      have moved := (advance?_cases step).1
      omega

end Cursor

open Cursor Relation

/-- **No text is cut inside a character.** Wherever the reading of a text has come to, both its offsets
fall between characters, in order and within the text, and what is unread begins at the second. The start
of the line stays where it is or goes on behind the line that is recorded, and never back. The reading
ends, just at the end of the text; each line is cut out between the two offsets of a place it has come to,
no such slice is missing, and the slices are the lines read off the characters without any offset. -/
theorem splitLines_cuts_between_characters (text : String) :
    (∀ cursor, ReflTransGen Advances (atStart text) cursor →
      InBounds text cursor ∧
      (cursor.advance? = none ↔ cursor.offset = text.utf8ByteSize) ∧
      (∀ cut next, cursor.advance? = some (cut, next) →
        cut = none ∧ next.lineStart = cursor.lineStart ∨
          cut = some ⟨cursor.lineStart, cursor.offset⟩ ∧ cursor.offset < next.lineStart) ∧
      ∀ later, ReflTransGen Advances cursor later → cursor.lineStart ≤ later.lineStart) ∧
    (∃ last, ReflTransGen Advances (atStart text) last ∧ last.advance? = none) ∧
    (∀ span ∈ lineSpans text, ∃ cursor, ReflTransGen Advances (atStart text) cursor ∧
      span = ⟨cursor.lineStart, cursor.offset⟩) ∧
    (lineSpans text).map (slice? text) = (linesFrom [] text.toList).map (some ∘ String.ofList) ∧
    splitLines text = (linesFrom [] text.toList).map String.ofList := by
  refine ⟨fun cursor run => ?_, exists_last _, fun span => exists_run_of_mem_spans,
    slice?_spans (within_atStart text), splitLines_eq text⟩
  obtain ⟨before, line, within⟩ := exists_within run
  have inBounds := within.inBounds
  refine ⟨inBounds, advance?_eq_none_iff run, fun cut next step => ?_, fun later onward => ?_⟩
  · obtain ⟨moved, same | ⟨recorded, fresh⟩⟩ := advance?_cases step
    · exact .inl same
    · exact .inr ⟨recorded, fresh ▸ moved⟩
  · exact (lineStart_le_of_run inBounds.lineStart_le onward).1

/-- A text that ends in a pair, with a break of two bytes and a character of two in front of it, read as
far as the pair. -/
theorem splitLines_cuts_between_characters_wide :
    let text := "a\u0085é\r\n"
    let cursor : Cursor := ⟨3, 5, ['\r', '\n']⟩
    let last : Cursor := ⟨7, 7, []⟩
    ReflTransGen Advances (atStart text) cursor ∧ cursor.advance? = some (some ⟨3, 5⟩, last) ∧
      ReflTransGen Advances cursor last ∧ ⟨3, 5⟩ ∈ lineSpans text ∧
      InBounds text cursor ∧ cursor.offset < last.lineStart ∧ cursor.lineStart ≤ last.lineStart ∧
      (last.advance? = none ↔ last.offset = text.utf8ByteSize) ∧
      (∃ place, ReflTransGen Advances (atStart text) place ∧
        (⟨3, 5⟩ : Span) = ⟨place.lineStart, place.offset⟩) ∧
      splitLines text = ["a", "é"] := by
  intro text cursor last
  have first : Advances (atStart text) ⟨0, 1, ['\u0085', 'é', '\r', '\n']⟩ := ⟨none, by decide +kernel⟩
  have second : Advances ⟨0, 1, ['\u0085', 'é', '\r', '\n']⟩ ⟨3, 3, ['é', '\r', '\n']⟩ :=
    ⟨some ⟨0, 1⟩, by decide +kernel⟩
  have third : Advances ⟨3, 3, ['é', '\r', '\n']⟩ cursor := ⟨none, by decide +kernel⟩
  have fourth : cursor.advance? = some (some ⟨3, 5⟩, last) := rfl
  have run : ReflTransGen Advances (atStart text) cursor :=
    ((ReflTransGen.single first).tail second).tail third
  have onward : ReflTransGen Advances cursor last := .single ⟨_, fourth⟩
  have recorded : ⟨3, 5⟩ ∈ lineSpans text := by decide +kernel
  obtain ⟨places, -, spans, -, lines⟩ := splitLines_cuts_between_characters text
  obtain ⟨inBounds, -, steps, forward⟩ := places cursor run
  obtain ⟨-, stops, -, -⟩ := places last (run.trans onward)
  have passed : cursor.offset < last.lineStart := by
    obtain ⟨unended, -⟩ | ⟨-, passed⟩ := steps _ _ fourth
    · cases unended
    · exact passed
  exact ⟨run, fourth, onward, recorded, inBounds, passed, forward last onward, stops,
    spans _ recorded, lines.trans (by decide +kernel)⟩

end ManifestLint.Text
