import ManifestLint.Proofs.Lines.Pieces

/-!
# Lines of texts put together

Two texts that meet between lines have the lines of both. Where they meet inside a line, or between a
carriage return and its line feed, the last line of the one and the first of the other become one line,
and nothing else changes. Main statement: `splitLines_append`.

* `openLine`: what some characters leave of a line that they do not end;
* `exists_ended`: the lines that some characters end stay as they are, whatever comes behind; what comes
  behind is read from the open line on;
* `linesFrom_grown`: what had been read of a line when the reading began shows in the first line alone;
* `MeetBetweenLines`: where two texts can be cut apart, said of the characters at the seam.
-/

namespace ManifestLint.Text

/-- What has been read of a line that is not ended, behind `before`, where `line` had been read of it
when the reading began. -/
def openLine (line before : List Char) : List Char :=
  before.foldl (fun line c => if isLineBreak c then [] else line ++ [c]) line

/-- No carriage return at the end of `before` is parted from a line feed that opens `after`. -/
def KeepsPairs (before after : List Char) : Prop :=
  before.getLast? = some '\r' → after.head? ≠ some '\n'

theorem openLine_cons (line : List Char) (c : Char) (rest : List Char) :
    openLine line (c :: rest) = openLine (if isLineBreak c then [] else line ++ [c]) rest := rfl

/-- No line is open behind a break, and behind nothing if none was open before. -/
theorem openLine_eq_nil_iff {line before : List Char} :
    openLine line before = [] ↔ before = [] ∧ line = [] ∨ ∃ c ∈ breaks, before.getLast? = some c := by
  obtain rfl | ⟨front, last, rfl⟩ := List.eq_nil_or_concat before
  · simp [openLine]
  · have step : openLine line (front ++ [last]) =
        if isLineBreak last then [] else openLine line front ++ [last] := by
      simp [openLine]
    rw [List.concat_eq_append, step]
    by_cases isBreak : isLineBreak last = true
    · simp [isBreak, isLineBreak_iff_mem_breaks.1 isBreak]
    · simp [isBreak, mt isLineBreak_iff_mem_breaks.2 isBreak]

theorem KeepsPairs.of_cons {c : Char} {before after : List Char}
    (keeps : KeepsPairs (c :: before) after) : KeepsPairs before after := by
  intro ends
  apply keeps
  rw [List.getLast?_cons, ends, Option.getD_some]

/-- A character that opens no pair with what follows it in `before` opens none with `after` either. -/
theorem KeepsPairs.not_pair {c : Char} {before after : List Char}
    (keeps : KeepsPairs (c :: before) after) (notPair : ∀ tail, c = '\r' → before ≠ '\n' :: tail) :
    ∀ tail, c = '\r' → before ++ after ≠ '\n' :: tail := by
  intro tail isReturn feed
  cases before with
  | nil =>
    rw [List.nil_append] at feed
    exact keeps (by rw [isReturn]; rfl) (by rw [feed]; rfl)
  | cons d rest =>
    rw [List.cons_append, List.cons.injEq] at feed
    exact notPair rest isReturn (by rw [feed.1])

/-- The lines that some characters end are ended for good: what comes behind goes on with the open line. -/
theorem exists_ended (line before : List Char) :
    ∃ ended, ∀ after, KeepsPairs before after →
      linesFrom line (before ++ after) = ended ++ linesFrom (openLine line before) after := by
  -- By the recursion of the reading of `before`, with the open line as what it carries along.
  induction line, before using linesFrom.induct with
  | case1 => exact ⟨[], fun after _ => rfl⟩
  | case2 line nonempty => exact ⟨[], fun after _ => rfl⟩
  | case3 line rest ih =>
    obtain ⟨ended, read⟩ := ih
    refine ⟨line :: ended, fun after keeps => ?_⟩
    exact congrArg (line :: ·) (read after keeps.of_cons.of_cons)
  | case4 line c rest notPair isBreak ih =>
    obtain ⟨ended, read⟩ := ih
    refine ⟨line :: ended, fun after keeps => ?_⟩
    rw [List.cons_append, linesFrom_cons (keeps.not_pair notPair), if_pos isBreak, openLine_cons,
      if_pos isBreak, read after keeps.of_cons, List.cons_append]
  | case5 line c rest notPair isBreak ih =>
    obtain ⟨ended, read⟩ := ih
    refine ⟨ended, fun after keeps => ?_⟩
    rw [List.cons_append, linesFrom_cons (keeps.not_pair notPair), if_neg isBreak, openLine_cons,
      if_neg isBreak, read after keeps.of_cons]

theorem exists_linesFrom_eq_cons (line : List Char) {rest : List Char} (nonempty : rest ≠ []) :
    ∃ first others, linesFrom line rest = first :: others := by
  induction line, rest using linesFrom.induct with
  | case1 => exact absurd rfl nonempty
  | case2 => exact absurd rfl nonempty
  | case3 line rest ih => exact ⟨line, linesFrom [] rest, rfl⟩
  | case4 line c rest notPair isBreak ih =>
    exact ⟨line, linesFrom [] rest, by rw [linesFrom_cons notPair, if_pos isBreak]⟩
  | case5 line c rest notPair isBreak ih =>
    rw [linesFrom_cons notPair, if_neg isBreak]
    by_cases atEnd : rest = []
    · rw [atEnd, linesFrom_nil, if_neg (by simp)]
      exact ⟨line ++ [c], [], rfl⟩
    · exact ih atEnd

/-- More characters at the front of the line that is being read stand at the front of the first line. -/
theorem linesFrom_grown (more : List Char) {line rest first : List Char} {others : List (List Char)}
    (read : linesFrom line rest = first :: others) :
    linesFrom (more ++ line) rest = (more ++ first) :: others := by
  induction line, rest using linesFrom.induct with
  | case1 => cases read
  | case2 line nonempty =>
    rw [linesFrom_nil, if_neg nonempty] at read
    cases read
    rw [linesFrom_nil, if_neg (by simp [nonempty])]
  | case3 line rest ih => cases read; rfl
  | case4 line c rest notPair isBreak ih =>
    rw [linesFrom_cons notPair, if_pos isBreak] at read ⊢
    cases read
    rfl
  | case5 line c rest notPair isBreak ih =>
    rw [linesFrom_cons notPair, if_neg isBreak] at read ⊢
    rw [List.append_assoc]
    exact ih read

/-- Two texts meet between lines: one of them is empty, or the first ends in a break that does not go on
in the second. -/
def MeetBetweenLines (a b : String) : Prop :=
  a = "" ∨ b = "" ∨
    (∃ c ∈ breaks, a.toList.getLast? = some c) ∧
      ¬ (a.toList.getLast? = some '\r' ∧ b.toList.head? = some '\n')

/-- Two lists of lines in which the last of the one and the first of the other are one line. -/
def Fused (front back whole : List (List Char)) : Prop :=
  ∃ before last first after, front = before ++ [last] ∧ back = first :: after ∧
    whole = before ++ (last ++ first) :: after

variable {a b : List Char}

/-- Behind a break that is not cut in two, the reading begins anew. -/
theorem linesFrom_append_of_ended (ended : ∃ c ∈ breaks, a.getLast? = some c) (keeps : KeepsPairs a b) :
    linesFrom [] (a ++ b) = linesFrom [] a ++ linesFrom [] b := by
  have fresh : openLine [] a = [] := openLine_eq_nil_iff.2 (.inr ended)
  obtain ⟨lines, read⟩ := exists_ended [] a
  have alone : linesFrom [] a = lines := by
    simpa [fresh, linesFrom_nil] using read [] (fun _ => by simp)
  rw [read b keeps, fresh, alone]

/-- A line that is open at the seam goes on with the first line behind it. -/
theorem fused_of_open (started : a ≠ []) (more : b ≠ [])
    (unended : ¬ ∃ c ∈ breaks, a.getLast? = some c) :
    Fused (linesFrom [] a) (linesFrom [] b) (linesFrom [] (a ++ b)) := by
  have isOpen : openLine [] a ≠ [] := by
    rw [Ne, openLine_eq_nil_iff]
    rintro (⟨empty, -⟩ | ended)
    · exact started empty
    · exact unended ended
  obtain ⟨lines, read⟩ := exists_ended [] a
  obtain ⟨first, others, behind⟩ := exists_linesFrom_eq_cons [] more
  have keeps (after : List Char) : KeepsPairs a after := fun ends _ => unended ⟨'\r', by decide, ends⟩
  refine ⟨lines, openLine [] a, first, others, ?_, behind, ?_⟩
  · simpa [linesFrom_nil, isOpen] using read [] (keeps [])
  · have grown := linesFrom_grown (openLine [] a) behind
    rw [List.append_nil] at grown
    rw [read b (keeps b), grown]

/-- Each half of a pair ends a line, and the pair ends one. -/
theorem fused_of_pair (ends : a.getLast? = some '\r') (opens : b.head? = some '\n') :
    Fused (linesFrom [] a) (linesFrom [] b) (linesFrom [] (a ++ b)) := by
  obtain ⟨front, rfl⟩ := List.getLast?_eq_some_iff.1 ends
  obtain ⟨back, rfl⟩ := List.head?_eq_some_iff.1 opens
  -- The reading is parted in front of the carriage return, where no pair can be cut, and not at the seam.
  obtain ⟨lines, read⟩ := exists_ended [] front
  have keeps (after : List Char) : KeepsPairs front ('\r' :: after) := fun _ => by simp
  refine ⟨lines, openLine [] front, [], linesFrom [] back, ?_, rfl, ?_⟩
  · exact read ['\r'] (keeps [])
  · rw [List.append_assoc, List.append_nil]
    exact read ('\r' :: '\n' :: back) (keeps _)

theorem Fused.length {front back whole : List (List Char)} (fused : Fused front back whole) :
    whole.length + 1 = front.length + back.length := by
  obtain ⟨before, last, first, after, rfl, rfl, rfl⟩ := fused
  simp only [List.length_append, List.length_cons, List.length_nil]
  omega

/-- Between lines nothing happens to the lines; elsewhere two of them become one. -/
theorem linesFrom_append_cases (a b : String) :
    MeetBetweenLines a b ∧ linesFrom [] (a ++ b).toList = linesFrom [] a.toList ++ linesFrom [] b.toList ∨
      ¬ MeetBetweenLines a b ∧
        Fused (linesFrom [] a.toList) (linesFrom [] b.toList) (linesFrom [] (a ++ b).toList) := by
  rw [String.toList_append]
  by_cases empty : a = ""
  · exact .inl ⟨.inl empty, by simp [empty, linesFrom_nil]⟩
  by_cases empty' : b = ""
  · exact .inl ⟨.inr (.inl empty'), by simp [empty', linesFrom_nil]⟩
  by_cases ended : ∃ c ∈ breaks, a.toList.getLast? = some c
  · by_cases parted : a.toList.getLast? = some '\r' ∧ b.toList.head? = some '\n'
    · right
      constructor
      · rintro (here | here | ⟨-, whole⟩)
        · exact empty here
        · exact empty' here
        · exact whole parted
      · exact fused_of_pair parted.1 parted.2
    · left
      constructor
      · exact .inr (.inr ⟨ended, parted⟩)
      · exact linesFrom_append_of_ended ended fun ends opens => parted ⟨ends, opens⟩
  · right
    constructor
    · rintro (here | here | ⟨here, -⟩)
      · exact empty here
      · exact empty' here
      · exact ended here
    · exact fused_of_open (by simpa using empty) (by simpa using empty') ended

/-- **Lines of two texts.** Put together, two texts have the lines of both if they meet between lines, and
only then. In all other cases they have one line less. -/
theorem splitLines_append (a b : String) :
    (splitLines (a ++ b) = splitLines a ++ splitLines b ↔ MeetBetweenLines a b) ∧
      ((splitLines (a ++ b)).length + 1 = (splitLines a).length + (splitLines b).length ↔
        ¬ MeetBetweenLines a b) := by
  simp only [splitLines_eq, List.length_map, ← List.map_append]
  obtain ⟨meet, same⟩ | ⟨apart, fused⟩ := linesFrom_append_cases a b
  · simp only [same, meet, List.length_append, not_true_eq_false, iff_false, true_and]
    omega
  · have short := fused.length
    simp only [apart, short, not_false_eq_true, iff_false, and_true]
    intro same
    have long := congrArg List.length same
    simp only [List.length_map, List.length_append] at long
    omega

example : splitLines ("a\r" ++ "\nb") = ["a", "b"] ∧ splitLines "a\r" ++ splitLines "\nb" = ["a", "", "b"] := by
  decide +kernel

end ManifestLint.Text
