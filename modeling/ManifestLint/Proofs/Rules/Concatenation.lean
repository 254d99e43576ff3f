import ManifestLint.Proofs.Rules.Findings

/-!
# Findings of lines put together

What the rules report of lines put together comes from what they report of the parts: a rule on single
lines reports what it does of each part, further down for the second, and the rule on the whole manifest
reports where it does so of both. Main statement: `checkAll_append`.

* `Finding.movedDown`, `Finding.makingRoom`: a finding after lines were put in above it, and after lines
  were put in at some place;
* `LineByLine`: what holds of a rule on single lines, and `LineByLine.insert` for lines put in between
  two parts.
-/

namespace ManifestLint

namespace Finding

/-- The finding with its line so many lines further down. -/
def movedDown (count : Nat) (finding : Finding) : Finding :=
  { finding with line := finding.line.map (· + count) }

/-- Whether a finding is about a line behind the line `position`. -/
def isBehind (position : Nat) (finding : Finding) : Bool := finding.line.any (position < ·)

/-- Whether a finding is about one of the `count` lines behind the line `position`. -/
def isAmong (position count : Nat) (finding : Finding) : Bool :=
  finding.isBehind position && !finding.isBehind (position + count)

/-- The finding after `count` lines were put in behind the line `position`. -/
def makingRoom (position count : Nat) (finding : Finding) : Finding :=
  if finding.isBehind position then finding.movedDown count else finding

theorem movedDown_movedDown (count further : Nat) (finding : Finding) :
    (finding.movedDown count).movedDown further = finding.movedDown (count + further) := by
  cases finding with
  | mk severity rule line message => cases line <;> simp [movedDown, Nat.add_assoc]

theorem isBehind_movedDown (position count : Nat) (finding : Finding) :
    (finding.movedDown count).isBehind (count + position) = finding.isBehind position := by
  cases finding with
  | mk severity rule line message => cases line <;> simp [movedDown, isBehind, Nat.add_comm count]

/-- Findings that go down from the top are behind every line that they pass. -/
theorem isBehind_movedDown_of_le {finding : Finding} (numbered : finding.isBehind 0 = true)
    {position count : Nat} (passed : position ≤ count) :
    (finding.movedDown count).isBehind position = true := by
  cases finding with
  | mk severity rule line message =>
    cases line with
    | none => cases numbered
    | some number =>
      simp only [isBehind, movedDown, Option.map_some, Option.any_some, decide_eq_true_eq] at *
      omega

theorem isAmong_of_not_behind {finding : Finding} {position : Nat}
    (above : finding.isBehind position = false) (count : Nat) : finding.isAmong position count = false := by
  rw [isAmong, above, Bool.false_and]

theorem makingRoom_of_not_behind {finding : Finding} {position : Nat}
    (above : finding.isBehind position = false) (count : Nat) :
    finding.makingRoom position count = finding := by
  rw [makingRoom, above]
  rfl

/-- A finding about one of `count` lines is about one of them where they were put in. -/
theorem isAmong_movedDown {finding : Finding} {count : Nat} (numbered : finding.isBehind 0 = true)
    (inside : finding.isBehind count = false) (position : Nat) :
    (finding.movedDown position).isAmong position count = true := by
  rw [isAmong, isBehind_movedDown_of_le numbered (Nat.le_refl position), isBehind_movedDown, inside]
  rfl

/-- A finding that goes down past the lines that were put in is about none of them. -/
theorem isAmong_movedDown_past {finding : Finding} (numbered : finding.isBehind 0 = true)
    (position count : Nat) : (finding.movedDown (position + count)).isAmong position count = false := by
  rw [isAmong, isBehind_movedDown_of_le numbered (Nat.le_refl (position + count)), Bool.not_true,
    Bool.and_false]

theorem makingRoom_movedDown {finding : Finding} (numbered : finding.isBehind 0 = true)
    (position count : Nat) :
    (finding.movedDown position).makingRoom position count = finding.movedDown (position + count) := by
  rw [makingRoom, isBehind_movedDown_of_le numbered (Nat.le_refl position), movedDown_movedDown]
  rfl

end Finding

namespace Rule

open Finding

/-! ## Rules on single lines -/

section
variable {checkLine : Nat → String → List Finding}

theorem checkEach_append (first : Nat) (a b : List String) :
    checkEach checkLine first (a ++ b) =
      checkEach checkLine first a ++ checkEach checkLine (first + a.length) b := by
  induction a generalizing first with
  | nil => rfl
  | cons line rest ih =>
    have further : first + 1 + rest.length = first + (line :: rest).length := by
      rw [List.length_cons]
      omega
    rw [List.cons_append, checkEach, checkEach, ih, further, List.append_assoc]

/-- What is said of a line is said of it further down, under its number there. -/
def Follows (checkLine : Nat → String → List Finding) : Prop :=
  ∀ number count line,
    checkLine (number + count) line = (checkLine number line).map (·.movedDown count)

theorem checkEach_add (follows : Follows checkLine) (first count : Nat) (lines : List String) :
    checkEach checkLine (first + count) lines =
      (checkEach checkLine first lines).map (·.movedDown count) := by
  induction lines generalizing first with
  | nil => rfl
  | cons line rest ih =>
    have next := ih (first + 1)
    rw [Nat.add_right_comm] at next
    rw [checkEach, checkEach, follows, next, List.map_append]

end

/-- A rule reports of lines put together what it reports of each part, and always of a line that is
there. -/
structure LineByLine (rule : Rule) : Prop where
  append : ∀ a b, rule.check (a ++ b) = rule.check a ++ (rule.check b).map (·.movedDown a.length)
  inside : ∀ lines, ∀ finding ∈ rule.check lines,
    finding.isBehind 0 = true ∧ finding.isBehind lines.length = false

theorem inside_of_isLine {lines : List String} {number : Nat} {line : String} {finding : Finding}
    (at_ : IsLine lines number line) (bears : finding.line = some number) :
    finding.isBehind 0 = true ∧ finding.isBehind lines.length = false := by
  obtain ⟨positive, here⟩ := at_
  obtain ⟨below, -⟩ := List.getElem?_eq_some_iff.1 here
  simp only [isBehind, bears, Option.any_some, decide_eq_true_eq, decide_eq_false_iff_not]
  omega

theorem lineByLine_baseImage : LineByLine BaseImage.rule where
  append a b := by
    have follows : Follows BaseImage.checkLine := by
      intro number count line
      simp only [BaseImage.checkLine]
      repeat' split
      all_goals rfl
    dsimp only [BaseImage.rule]
    rw [checkEach_append, checkEach_add follows]
  inside lines finding mem := by
    obtain ⟨number, line, at_, -, ⟨-, rfl⟩ | ⟨-, rfl⟩⟩ := mem_baseImage.1 mem
    · exact inside_of_isLine at_ rfl
    · exact inside_of_isLine at_ rfl

theorem lineByLine_addOrCopy : LineByLine AddOrCopy.rule where
  append a b := by
    have follows : Follows AddOrCopy.checkLine := by
      intro number count line
      simp only [AddOrCopy.checkLine]
      split <;> rfl
    dsimp only [AddOrCopy.rule]
    rw [checkEach_append, checkEach_add follows]
  inside lines finding mem := by
    obtain ⟨number, line, at_, -, rfl⟩ := mem_addOrCopy.1 mem
    exact inside_of_isLine at_ rfl

/-- Lines put in add findings about themselves, and move down those about the lines behind them. -/
theorem LineByLine.insert {rule : Rule} (h : LineByLine rule) (before inserted after : List String) :
    (rule.check (before ++ inserted ++ after)).filter (!·.isAmong before.length inserted.length) =
      (rule.check (before ++ after)).map (·.makingRoom before.length inserted.length) := by
  rw [h.append, h.append, h.append, List.length_append, List.filter_append, List.filter_append,
    List.map_append, List.map_map]
  -- Above the place nothing changes.
  have above : ∀ finding ∈ rule.check before, finding.isBehind before.length = false :=
    fun finding mem => (h.inside before finding mem).2
  have kept : (rule.check before).filter (!·.isAmong before.length inserted.length) =
      rule.check before := by
    apply List.filter_eq_self.2
    intro finding mem
    rw [isAmong_of_not_behind (above finding mem), Bool.not_false]
  have still : (rule.check before).map (·.makingRoom before.length inserted.length) =
      rule.check before :=
    (List.map_congr_left fun finding mem => makingRoom_of_not_behind (above finding mem) _).trans
      (List.map_id _)
  -- At the place all findings are new.
  have new : ((rule.check inserted).map (·.movedDown before.length)).filter
      (!·.isAmong before.length inserted.length) = [] := by
    rw [List.filter_map, List.map_eq_nil_iff, List.filter_eq_nil_iff]
    intro finding mem
    obtain ⟨numbered, within⟩ := h.inside inserted finding mem
    simp [isAmong_movedDown numbered within]
  -- Below it all findings are moved.
  have numbered : ∀ finding ∈ rule.check after, finding.isBehind 0 = true :=
    fun finding mem => (h.inside after finding mem).1
  have past : ((rule.check after).map (·.movedDown (before.length + inserted.length))).filter
        (!·.isAmong before.length inserted.length) =
      (rule.check after).map (·.movedDown (before.length + inserted.length)) := by
    rw [List.filter_eq_self, List.forall_mem_map]
    intro finding mem
    rw [isAmong_movedDown_past (numbered finding mem), Bool.not_false]
  have moved : (rule.check after).map
        ((·.makingRoom before.length inserted.length) ∘ (·.movedDown before.length)) =
      (rule.check after).map (·.movedDown (before.length + inserted.length)) :=
    List.map_congr_left fun finding mem => makingRoom_movedDown (numbered finding mem) _ _
  rw [kept, still, new, past, moved, List.append_nil]

/-! ## All rules -/

theorem checkAll_eq (lines : List String) :
    checkAll lines = BaseImage.rule.check lines ++ NonRootUser.rule.check lines ++
      AddOrCopy.rule.check lines := by
  simp [checkAll, registry]

theorem userless_append {a b : List String} : Userless (a ++ b) ↔ Userless a ∧ Userless b := by
  rw [userless_iff, userless_iff, userless_iff, List.forall_mem_append]

/-- Lines put in can only take the complaint away that no user is named. -/
theorem check_nonRootUser_insert (before inserted after : List String) :
    (NonRootUser.rule.check (before ++ inserted ++ after)).filter
        (!·.isAmong before.length inserted.length) =
      ((NonRootUser.rule.check (before ++ after)).filter fun finding =>
        finding ≠ NonRootUser.noUser ∨ Userless inserted).map
          (·.makingRoom before.length inserted.length) := by
  have outside : NonRootUser.noUser.isAmong before.length inserted.length = false := rfl
  have still : NonRootUser.noUser.makingRoom before.length inserted.length = NonRootUser.noUser := rfl
  simp only [check_nonRootUser, userless_append]
  by_cases new : Userless inserted
  · simp only [new, and_true]
    split
    · simp [outside, still]
    · simp
  · simp only [new, and_false, false_and, if_false]
    split
    · simp
    · simp

/-- A rule on single lines never complains that no user is named. -/
theorem LineByLine.filter_ne_noUser {rule : Rule} (h : LineByLine rule) (lines inserted : List String) :
    ((rule.check lines).filter fun finding =>
      finding ≠ NonRootUser.noUser ∨ Userless inserted) = rule.check lines := by
  apply List.filter_eq_self.2
  intro finding mem
  have other : finding ≠ NonRootUser.noUser := by
    rintro rfl
    exact absurd (h.inside lines _ mem).1 (by decide)
  simp [other]

/-- **The report of lines put together.** What it says under the name of a rule on single lines is what the
rule says of the first part, and of the second with its lines counted on; it complains that no user is
named if it does so of both parts; and it says nothing else, rule by rule. So where lines are put in, all
findings on other lines stay, those below under the new numbers of their lines, and only the complaint
that no user is named may go. -/
theorem checkAll_append (a b : List String) :
    let together (rule : Rule) := saidBy rule a ++ (saidBy rule b).map (·.movedDown a.length)
    saidBy BaseImage.rule (a ++ b) = together BaseImage.rule ∧
    saidBy AddOrCopy.rule (a ++ b) = together AddOrCopy.rule ∧
    (Userless (a ++ b) ↔ Userless a ∧ Userless b) ∧
    checkAll (a ++ b) = together BaseImage.rule ++
      (if Userless a ∧ Userless b then [NonRootUser.noUser] else []) ++ together AddOrCopy.rule ∧
    ∀ inserted,
      (checkAll (a ++ inserted ++ b)).filter (!·.isAmong a.length inserted.length) =
        ((checkAll (a ++ b)).filter fun finding =>
          finding ≠ NonRootUser.noUser ∨ Userless inserted).map
            (·.makingRoom a.length inserted.length) := by
  intro together
  have images := @saidBy_eq BaseImage.rule (by simp [registry])
  have copies := @saidBy_eq AddOrCopy.rule (by simp [registry])
  have ofImages : saidBy BaseImage.rule (a ++ b) = together BaseImage.rule := by
    simp only [together, images, lineByLine_baseImage.append]
  have ofCopies : saidBy AddOrCopy.rule (a ++ b) = together AddOrCopy.rule := by
    simp only [together, copies, lineByLine_addOrCopy.append]
  refine ⟨ofImages, ofCopies, userless_append, ?_, fun inserted => ?_⟩
  · rw [checkAll_eq, check_nonRootUser, ← images, ← copies, ofImages, ofCopies]
    simp only [userless_append]
  · rw [checkAll_eq, checkAll_eq, List.filter_append, List.filter_append, List.filter_append,
      List.filter_append, List.map_append, List.map_append, lineByLine_baseImage.insert,
      lineByLine_addOrCopy.insert, check_nonRootUser_insert, lineByLine_baseImage.filter_ne_noUser,
      lineByLine_addOrCopy.filter_ne_noUser]

end Rule

end ManifestLint
