import ManifestLint.Proofs.Reports.Sections

/-!
# Colour only decorates

A report in colour shows the same text as one without: what colour adds are control sequences, and
deleting them leaves the plain report. Main statement: `withoutSequences_toHuman`.

* `Style.withoutSequences`: a text with all control sequences deleted in one scan;
* `Style.ShowsAs`: what is left of a text by the scan, whatever comes behind it, so that it can be said
  part by part;
* `Style.LinesShowAs`: the same of lines.
-/

namespace ManifestLint

namespace Style

/-- What stands behind the rest of a control sequence, of which the escape character has been read: a
bracket, a code of digits and the letter m. -/
def behindSequence? : List Char → Option (List Char)
  | '[' :: rest =>
    match rest.takeWhile Char.isDigit, rest.dropWhile Char.isDigit with
    | _ :: _, 'm' :: behind => some behind
    | _, _ => none
  | _ => none

theorem length_behindSequence? {rest behind : List Char} (h : behindSequence? rest = some behind) :
    behind.length < rest.length := by
  unfold behindSequence? at h
  split at h
  · next rest =>
    split at h
    · next digit digits found cut stop =>
      cases h
      have within : (rest.dropWhile Char.isDigit).length ≤ rest.length :=
        (List.dropWhile_suffix Char.isDigit).length_le
      rw [stop, List.length_cons] at within
      rw [List.length_cons]
      omega
    · cases h
  · cases h

/-- A text without its control sequences. An escape character that opens none stays. -/
def withoutSequences : List Char → List Char
  | [] => []
  | c :: rest =>
    if c = '\x1b' then
      match _h : behindSequence? rest with
      | some behind => withoutSequences behind
      | none => c :: withoutSequences rest
    else c :: withoutSequences rest
termination_by text => text.length
decreasing_by
  · exact Nat.lt_succ_of_lt (length_behindSequence? _h)
  · exact Nat.lt_succ_self _
  · exact Nat.lt_succ_self _

/-- A code of a control sequence: digits, of which there is at least one. -/
def IsCode (code : String) : Prop := code ≠ "" ∧ code.toList.all Char.isDigit = true

/-- Without control sequences a text is `shown`, and what comes behind it is scanned by itself. -/
def ShowsAs (text shown : String) : Prop :=
  ∀ rest, withoutSequences (text.toList ++ rest) = shown.toList ++ withoutSequences rest

theorem withoutSequences_cons {c : Char} (other : c ≠ '\x1b') (rest : List Char) :
    withoutSequences (c :: rest) = c :: withoutSequences rest := by
  rw [withoutSequences, if_neg other]

theorem withoutSequences_escape {rest behind : List Char} (h : behindSequence? rest = some behind) :
    withoutSequences ('\x1b' :: rest) = withoutSequences behind := by
  rw [withoutSequences, if_pos rfl]
  split
  · next found => rw [h] at found; cases found; rfl
  · next none => rw [h] at none; cases none

theorem behindSequence?_code {code : List Char} (nonempty : code ≠ [])
    (digits : ∀ c ∈ code, c.isDigit = true) (rest : List Char) :
    behindSequence? ('[' :: (code ++ 'm' :: rest)) = some rest := by
  have letter : ¬ Char.isDigit 'm' = true := by decide
  have taken : (code ++ 'm' :: rest).takeWhile Char.isDigit = code := by
    rw [List.takeWhile_append_of_pos digits, List.takeWhile_cons_of_neg letter, List.append_nil]
  have dropped : (code ++ 'm' :: rest).dropWhile Char.isDigit = 'm' :: rest := by
    rw [List.dropWhile_append_of_pos digits, List.dropWhile_cons_of_neg letter]
  obtain ⟨digit, more, rfl⟩ := List.exists_cons_of_ne_nil nonempty
  simp only [behindSequence?, taken, dropped]

theorem showsAs_of_escapeless {text : String} (escapeless : '\x1b' ∉ text.toList) :
    ShowsAs text text := by
  intro rest
  generalize text.toList = chars at escapeless
  induction chars with
  | nil => rfl
  | cons c more ih =>
    obtain ⟨other, lacks⟩ := not_or.1 (mt List.mem_cons.2 escapeless)
    rw [List.cons_append, withoutSequences_cons (Ne.symm other), ih lacks, List.cons_append]

theorem showsAs_controlSequence {code : String} (valid : IsCode code) :
    ShowsAs (controlSequence code) "" := by
  intro rest
  have written : (controlSequence code).toList ++ rest =
      '\x1b' :: '[' :: (code.toList ++ 'm' :: rest) := by
    simp [controlSequence]
  have digits : ∀ c ∈ code.toList, c.isDigit = true := List.all_eq_true.1 valid.2
  rw [written, withoutSequences_escape (behindSequence?_code (by simpa using valid.1) digits rest)]
  rfl

variable {text text' shown shown' : String}

theorem ShowsAs.append (first : ShowsAs text shown) (second : ShowsAs text' shown') :
    ShowsAs (text ++ text') (shown ++ shown') := by
  intro rest
  rw [String.toList_append, List.append_assoc, first, second, String.toList_append, List.append_assoc]

/-- A style adds nothing that is seen. -/
theorem ShowsAs.apply {style : Style} (on : IsCode style.on) (off : IsCode style.off)
    (inside : ShowsAs text shown) : ShowsAs (style.apply text) shown := by
  have parts := ((showsAs_controlSequence on).append inside).append (showsAs_controlSequence off)
  rwa [String.empty_append, String.append_empty] at parts

theorem ShowsAs.withoutSequences_eq (shows : ShowsAs text shown) :
    withoutSequences text.toList = shown.toList := by
  have whole := shows []
  rwa [List.append_nil, withoutSequences, List.append_nil] at whole

/-- Lines, each ended by a line feed, show as others. -/
def LinesShowAs (lines shown : List String) : Prop :=
  ShowsAs (String.join (lines.map (· ++ "\n"))) (String.join (shown.map (· ++ "\n")))

theorem linesShowAs_nil : LinesShowAs [] [] := showsAs_of_escapeless (by decide)

theorem linesShowAs_singleton (shows : ShowsAs text shown) : LinesShowAs [text] [shown] := by
  have lineFeed : ShowsAs "\n" "\n" := showsAs_of_escapeless (by decide)
  have ended := shows.append lineFeed
  simpa [LinesShowAs, String.join] using ended

theorem LinesShowAs.append {lines lines' shown shown' : List String} (first : LinesShowAs lines shown)
    (second : LinesShowAs lines' shown') : LinesShowAs (lines ++ lines') (shown ++ shown') := by
  have both := ShowsAs.append first second
  rwa [← String.join_append, ← String.join_append, ← List.map_append, ← List.map_append] at both

theorem linesShowAs_flatMap {α : Type} {items : List α} {f g : α → List String}
    (each : ∀ a ∈ items, LinesShowAs (f a) (g a)) :
    LinesShowAs (items.flatMap f) (items.flatMap g) := by
  induction items with
  | nil => exact linesShowAs_nil
  | cons a rest ih =>
    rw [List.flatMap_cons, List.flatMap_cons]
    exact (each a List.mem_cons_self).append (ih fun b mem => each b (List.mem_cons_of_mem a mem))

theorem linesShowAs_map {α : Type} {items : List α} {f g : α → String}
    (each : ∀ a ∈ items, ShowsAs (f a) (g a)) : LinesShowAs (items.map f) (items.map g) := by
  rw [List.map_eq_flatMap, List.map_eq_flatMap]
  exact linesShowAs_flatMap fun a mem => linesShowAs_singleton (each a mem)

end Style

namespace Report

open Style

theorem isCode_bold : IsCode bold.on ∧ IsCode bold.off :=
  ⟨⟨by decide, rfl⟩, ⟨by decide, rfl⟩⟩

theorem isCode_tagStyle (severity : Severity) :
    IsCode (tagStyle severity).on ∧ IsCode (tagStyle severity).off := by
  cases severity <;> exact ⟨⟨by decide, rfl⟩, ⟨by decide, rfl⟩⟩

theorem showsAs_title : ShowsAs (bold.apply title) title :=
  .apply isCode_bold.1 isCode_bold.2 (showsAs_of_escapeless (by decide))

theorem showsAs_renderFinding {finding : Finding} (escapeless : '\x1b' ∉ finding.message.toList) :
    ShowsAs (renderFinding true finding) (renderFinding false finding) := by
  have tag : ShowsAs finding.tag finding.tag := by
    apply showsAs_of_escapeless
    unfold Finding.tag
    cases finding.severity <;> decide
  have space : ShowsAs " " " " := showsAs_of_escapeless (by decide)
  obtain ⟨on, off⟩ := isCode_tagStyle finding.severity
  have colored := (tag.apply on off).apply isCode_bold.1 isCode_bold.2
  exact (colored.append space).append (showsAs_of_escapeless escapeless)

theorem linesShowAs_renderManifest {manifest : ManifestReport} (labelled : Bool)
    (label : '\x1b' ∉ manifest.label.toList)
    (messages : ∀ finding ∈ manifest.findings, '\x1b' ∉ finding.message.toList) :
    LinesShowAs (renderManifest true labelled manifest) (renderManifest false labelled manifest) := by
  have opening : LinesShowAs (if labelled then ["==> " ++ manifest.label] else [])
      (if labelled then ["==> " ++ manifest.label] else []) := by
    cases labelled with
    | false => exact linesShowAs_nil
    | true =>
      have arrow : ShowsAs "==> " "==> " := showsAs_of_escapeless (by decide)
      exact linesShowAs_singleton (arrow.append (showsAs_of_escapeless label))
  exact opening.append (linesShowAs_map fun finding mem => showsAs_renderFinding (messages finding mem))

theorem linesShowAs_humanLines {report : Report} (escapeless : report.Lacks '\x1b') :
    LinesShowAs (report.humanLines true) (report.humanLines false) := by
  have blank : LinesShowAs [""] [""] := linesShowAs_singleton (showsAs_of_escapeless (by decide))
  have heading := (blank.append (linesShowAs_singleton showsAs_title)).append blank
  apply heading.append
  apply linesShowAs_flatMap
  intro manifest mem
  obtain ⟨label, messages⟩ := escapeless manifest mem
  exact linesShowAs_renderManifest _ label messages

/-- **Colour only decorates.** Without its control sequences, a report in colour is the plain report, if
labels and messages bring no escape character of their own. -/
theorem withoutSequences_toHuman (report : Report) (escapeless : report.Lacks '\x1b') :
    String.ofList (withoutSequences (report.toHuman true).toList) = report.toHuman false := by
  have shows : ShowsAs (report.toHuman true) (report.toHuman false) := linesShowAs_humanLines escapeless
  rw [shows.withoutSequences_eq, String.ofList_toList]

/-- Labels and messages that look like the rest of a control sequence stay as they are. -/
theorem withoutSequences_toHuman_codes :
    let report := ofManifests [⟨"[1m", [⟨.warning, "r", some 1, "[0m 31m"⟩, ⟨.info, "r", none, ""⟩]⟩,
      ⟨"m", []⟩]
    report.Lacks '\x1b' ∧ String.ofList (withoutSequences (report.toHuman true).toList) =
      "\nMisconfiguration Check Report:\n\n==> [1m\n[WARNING] [0m 31m\n[INFO] \n==> m\n" := by
  intro report
  have escapeless : report.Lacks '\x1b' := by
    unfold Lacks
    decide
  have plain : report.toHuman false =
      "\nMisconfiguration Check Report:\n\n==> [1m\n[WARNING] [0m 31m\n[INFO] \n==> m\n" := by
    decide +kernel
  exact ⟨escapeless, (withoutSequences_toHuman report escapeless).trans plain⟩

end Report

end ManifestLint
