import ManifestLint.Proofs.Lines.Cursor

/-!
# Texts as lines with endings

A text is its lines, each with what ends it. Main statement: `splitLines_eq_iff_wellCut`, the lines of
a text are those of the one way to write it as pieces that fit together. There always is a way
(`exists_wellCut`), and the lines of any such pieces are read back from their text
(`linesFrom_rendered`), so there is no other.
-/

namespace ManifestLint.Text

/-- The characters at which a text is cut. -/
def breaks : List Char :=
  ['\n', '\r', '\x0b', '\x0c', '\x1c', '\x1d', '\x1e', '\u0085', '\u2028', '\u2029']

theorem isLineBreak_iff_mem_breaks {c : Char} : isLineBreak c = true ↔ c ∈ breaks := by
  simp [isLineBreak, breaks, or_assoc]

theorem not_isLineBreak_iff {c : Char} : isLineBreak c = false ↔ c ∉ breaks := by
  rw [← isLineBreak_iff_mem_breaks, Bool.not_eq_true]

/-- What can end a line: a break character, or a carriage return with its line feed. -/
def IsEnding (ending : String) : Prop :=
  ending = "\r\n" ∨ ∃ c ∈ breaks, ending = String.singleton c

/-- A line, and what stands between it and the next. -/
structure Piece where
  line : String
  ending : String
  deriving DecidableEq, Repr

namespace Piece

/-- The text of some pieces. -/
def rendered : List Piece → String
  | [] => ""
  | piece :: rest => piece.line ++ piece.ending ++ rendered rest

/-- Whether a piece can stand before the pieces `rest`. Only the last one can lack an ending, and then
it holds something; and no carriage return is parted from a line feed behind it. -/
structure Fits (piece : Piece) (rest : List Piece) : Prop where
  unbroken : ∀ c ∈ piece.line.toList, c ∉ breaks
  ended : IsEnding piece.ending ∨ rest = [] ∧ piece.ending = "" ∧ piece.line ≠ ""
  paired : piece.ending = "\r" → (rendered rest).toList.head? ≠ some '\n'

/-- Each piece fits what follows it. -/
def WellCut : List Piece → Prop
  | [] => True
  | piece :: rest => piece.Fits rest ∧ WellCut rest

end Piece

open Piece

/-- Characters that end no line are read into the line. -/
theorem linesFrom_unbroken {chars : List Char} (h : ∀ c ∈ chars, c ∉ breaks)
    (line rest : List Char) : linesFrom line (chars ++ rest) = linesFrom (line ++ chars) rest := by
  induction chars generalizing line with
  | nil => simp
  | cons c chars ih =>
    have hc : c ∉ breaks := h c List.mem_cons_self
    have notReturn : c ≠ '\r' := by rintro rfl; exact hc (by decide)
    rw [List.cons_append, linesFrom_cons fun _ he => absurd he notReturn, not_isLineBreak_iff.2 hc]
    simpa using ih (fun d hd => h d (List.mem_cons_of_mem _ hd)) (line ++ [c])

/-- An ending ends the line, unless it is a carriage return and its line feed follows. -/
theorem linesFrom_ending {ending : String} (h : IsEnding ending) {rest : List Char}
    (paired : ending = "\r" → rest.head? ≠ some '\n') (line : List Char) :
    linesFrom line (ending.toList ++ rest) = line :: linesFrom [] rest := by
  obtain rfl | ⟨c, hc, rfl⟩ := h
  · rfl
  · have notPair : ∀ tail, c = '\r' → rest ≠ '\n' :: tail := by
      rintro tail rfl rfl
      exact paired rfl rfl
    rw [String.toList_singleton, List.singleton_append, linesFrom_cons notPair,
      if_pos (isLineBreak_iff_mem_breaks.2 hc)]

theorem linesFrom_rendered {pieces : List Piece} (h : WellCut pieces) :
    linesFrom [] (rendered pieces).toList = pieces.map (·.line.toList) := by
  induction pieces with
  | nil => rfl
  | cons piece rest ih =>
    obtain ⟨fits, cut⟩ := h
    rw [rendered, String.toList_append, String.toList_append, List.append_assoc,
      linesFrom_unbroken fits.unbroken, List.nil_append]
    obtain ending | ⟨rfl, bare, nonempty⟩ := fits.ended
    · rw [linesFrom_ending ending fits.paired, ih cut, List.map_cons]
    · simp [bare, rendered, linesFrom_nil, nonempty]

/-- What follows what has been read of a line is the rest of that line and further pieces. -/
theorem exists_wellCut (line rest : List Char) (h : ∀ c ∈ line, c ∉ breaks) :
    ∃ pieces, WellCut pieces ∧ rendered pieces = String.ofList (line ++ rest) := by
  induction line, rest using linesFrom.induct with
  | case1 => exact ⟨[], trivial, rfl⟩
  | case2 line nonempty =>
    refine ⟨[⟨String.ofList line, ""⟩], ⟨⟨by simpa using h, .inr ⟨rfl, rfl, ?_⟩, ?_⟩, trivial⟩, ?_⟩
    · simpa using nonempty
    · simp
    · simp [rendered]
  | case3 line rest ih =>
    obtain ⟨pieces, cut, written⟩ := ih (by simp)
    refine ⟨⟨String.ofList line, "\r\n"⟩ :: pieces, ⟨⟨by simpa using h, .inl (.inl rfl), ?_⟩, cut⟩, ?_⟩
    · simp
    · rw [rendered, written]; apply String.toList_injective; simp
  | case4 line c rest notPair hc ih =>
    obtain ⟨pieces, cut, written⟩ := ih (by simp)
    refine ⟨⟨String.ofList line, String.singleton c⟩ :: pieces,
      ⟨⟨by simpa using h, .inl (.inr ⟨c, isLineBreak_iff_mem_breaks.1 hc, rfl⟩), ?_⟩, cut⟩, ?_⟩
    · -- A line feed behind a carriage return would have been read together with it.
      intro isReturn feed
      rw [written] at feed
      cases rest with
      | nil => simp at feed
      | cons d tail =>
        have hc : c = '\r' := by simpa using congrArg String.toList isReturn
        have hd : d = '\n' := by simpa using feed
        exact notPair tail hc (by rw [hd])
    · rw [rendered, written]; apply String.toList_injective; simp
  | case5 line c rest notPair hc ih =>
    obtain ⟨pieces, cut, written⟩ := ih (by
      intro d hd
      obtain hd | hd := List.mem_append.1 hd
      · exact h d hd
      · rw [List.mem_singleton.1 hd, ← not_isLineBreak_iff]
        simpa using hc)
    exact ⟨pieces, cut, by simpa using written⟩

/-- **The lines of a text.** A text has the lines of the pieces that it can be written as, whichever
endings they have; it can always be written so, and only the empty text has no line. -/
theorem splitLines_eq_iff_wellCut :
    (∀ (text : String) (lines : List String), splitLines text = lines ↔
      ∃ pieces, WellCut pieces ∧ rendered pieces = text ∧ pieces.map (·.line) = lines) ∧
    ∀ text : String, splitLines text = [] ↔ text = "" := by
  have read {pieces : List Piece} (cut : WellCut pieces) :
      splitLines (rendered pieces) = pieces.map (·.line) := by
    simp [splitLines_eq, linesFrom_rendered cut, Function.comp_def]
  have written (text : String) : ∃ pieces, WellCut pieces ∧ rendered pieces = text := by
    simpa using exists_wellCut [] text.toList (by simp)
  refine ⟨fun text lines => ⟨?_, ?_⟩, fun text => ⟨?_, ?_⟩⟩
  · rintro rfl
    obtain ⟨pieces, cut, rfl⟩ := written text
    exact ⟨pieces, cut, rfl, (read cut).symm⟩
  · rintro ⟨pieces, cut, rfl, rfl⟩
    exact read cut
  · intro none
    obtain ⟨pieces, cut, rfl⟩ := written text
    rw [read cut, List.map_eq_nil_iff] at none
    rw [none, rendered]
  · rintro rfl
    have nothing : WellCut [] := trivial
    exact read nothing

example : splitLines "a\r\r\nb\u2028\n" = ["a", "", "b", ""] := by decide +kernel

end ManifestLint.Text
