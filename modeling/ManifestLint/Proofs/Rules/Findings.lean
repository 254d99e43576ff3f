import ManifestLint.Rule.Registry

/-!
# The findings of a manifest

What the rules report, said of the lines alone, and in which order. Main statement: `checkAll_exact`.

* `mem_checkEach`: a rule on single lines, by what it says of one line;
* `Due`: what there is to report of some lines, with no rule run;
* `Precedes`: the order of a report, strict, so that nothing is reported twice;
* `filter_flatMap_check`: rules of different names leave each other's findings alone;
* `saidBy`, `Userless`: what a report says for one rule, and whether it complains that no user is named.
-/

namespace ManifestLint.Rule

/-- The line of a number, counted from one. -/
def IsLine (lines : List String) (number : Nat) (line : String) : Prop :=
  1 ≤ number ∧ lines[number - 1]? = some line

/-! ## Rules on single lines -/

section
variable {checkLine : Nat → String → List Finding}

theorem mem_checkEach_from {first : Nat} {lines : List String} {finding : Finding} :
    finding ∈ checkEach checkLine first lines ↔
      ∃ i line, lines[i]? = some line ∧ finding ∈ checkLine (first + i) line := by
  induction lines generalizing first with
  | nil => simp [checkEach]
  | cons head rest ih =>
    rw [checkEach, List.mem_append, ih]
    constructor
    · rintro (now | ⟨i, line, here, later⟩)
      · exact ⟨0, head, rfl, now⟩
      · exact ⟨i + 1, line, here, by rwa [Nat.add_right_comm, Nat.add_assoc] at later⟩
    · rintro ⟨i, line, here, found⟩
      cases i with
      | zero => cases here; exact .inl found
      | succ i => exact .inr ⟨i, line, here, by rwa [Nat.add_right_comm, Nat.add_assoc]⟩

/-- A rule on single lines reports what it says of a line under the number of that line. -/
theorem mem_checkEach {lines : List String} {finding : Finding} :
    finding ∈ checkEach checkLine 1 lines ↔
      ∃ number line, IsLine lines number line ∧ finding ∈ checkLine number line := by
  rw [mem_checkEach_from]
  constructor
  · rintro ⟨i, line, here, found⟩
    exact ⟨1 + i, line, ⟨by omega, by simpa using here⟩, found⟩
  · rintro ⟨number, line, ⟨positive, here⟩, found⟩
    exact ⟨number - 1, line, here, by rwa [Nat.add_sub_cancel' positive]⟩

end

/-! ## What each rule reports -/

theorem opensWith_iff {word : String} {line : List Char} :
    opensWith word line = true ↔ word.toList <+: line :=
  List.isPrefixOf_iff_prefix

theorem mem_baseImage {lines : List String} {finding : Finding} :
    finding ∈ BaseImage.rule.check lines ↔
      ∃ number line, IsLine lines number line ∧ "FROM".toList <+: line.toList ∧
        ("latest".toList <:+: Text.lowercase line.toList ∧ finding = BaseImage.latest number ∨
          "scratch".toList <:+: Text.lowercase line.toList ∧ finding = BaseImage.scratch number) := by
  rw [BaseImage.rule, mem_checkEach]
  refine exists_congr fun number => exists_congr fun line => and_congr_right fun _ => ?_
  simp only [BaseImage.checkLine, List.mem_ite_nil_right, List.mem_append, List.mem_singleton,
    opensWith_iff, Text.contains_iff_isInfix]

theorem mem_nonRootUser {lines : List String} {finding : Finding} :
    finding ∈ NonRootUser.rule.check lines ↔
      (∀ line ∈ lines, ¬ "USER".toList <:+: line.toList) ∧ finding = NonRootUser.noUser := by
  simp only [NonRootUser.rule, NonRootUser.check, List.mem_ite_nil_left, List.any_eq_true,
    Text.contains_iff_isInfix, List.mem_singleton, not_exists, not_and]

/-- A word stands behind blanks at the front of a line, if it does not begin with a blank itself. -/
theorem prefix_dropWhile_iff {blank : Char → Bool} {c : Char} (visible : blank c = false)
    (word line : List Char) :
    c :: word <+: line.dropWhile blank ↔
      ∃ blanks, (∀ b ∈ blanks, blank b = true) ∧ blanks ++ c :: word <+: line := by
  constructor
  · rintro ⟨rest, here⟩
    refine ⟨line.takeWhile blank, List.all_eq_true.1 List.all_takeWhile, rest, ?_⟩
    rw [List.append_assoc, here, List.takeWhile_append_dropWhile]
  · rintro ⟨blanks, all, rest, rfl⟩
    rw [List.append_assoc, List.dropWhile_append_of_pos all, List.cons_append,
      List.dropWhile_cons_of_neg (by simp [visible])]
    exact ⟨rest, rfl⟩

theorem mem_addOrCopy {lines : List String} {finding : Finding} :
    finding ∈ AddOrCopy.rule.check lines ↔
      ∃ number line, IsLine lines number line ∧
        (∃ blanks, (∀ b ∈ blanks, Text.isBlank b = true) ∧ blanks ++ "ADD".toList <+: line.toList) ∧
        finding = AddOrCopy.added number := by
  rw [AddOrCopy.rule, mem_checkEach]
  refine exists_congr fun number => exists_congr fun line => and_congr_right fun _ => ?_
  rw [AddOrCopy.checkLine, List.mem_ite_nil_right, List.mem_singleton, opensWith_iff]
  exact and_congr_left fun _ => prefix_dropWhile_iff (by decide) ['D', 'D'] line.toList

/-- What there is to report of some lines. -/
inductive Due (lines : List String) : Finding → Prop
  | latest {number line} : IsLine lines number line → "FROM".toList <+: line.toList →
      "latest".toList <:+: Text.lowercase line.toList →
      Due lines ⟨.warning, "base-image-tag", some number,
        "Base image uses 'latest' tag. Use specific versions."⟩
  | scratch {number line} : IsLine lines number line → "FROM".toList <+: line.toList →
      "scratch".toList <:+: Text.lowercase line.toList →
      Due lines ⟨.info, "base-image-tag", some number,
        "Base image is 'scratch'. Ensure minimal image is needed."⟩
  | noUser : (∀ line ∈ lines, ¬ "USER".toList <:+: line.toList) →
      Due lines ⟨.warning, "non-root-user", none,
        "No USER instruction found. Containers run as root by default."⟩
  | added {number line blanks} : IsLine lines number line →
      (∀ b ∈ blanks, Text.isBlank b = true) → blanks ++ "ADD".toList <+: line.toList →
      Due lines ⟨.warning, "add-vs-copy", some number,
        "'ADD' used instead of 'COPY'. 'COPY' is preferred unless needed."⟩

theorem mem_checkAll {lines : List String} {finding : Finding} :
    finding ∈ checkAll lines ↔ Due lines finding := by
  simp only [checkAll, registry, List.flatMap_cons, List.flatMap_nil, List.append_nil,
    List.mem_append, mem_baseImage, mem_nonRootUser, mem_addOrCopy]
  constructor
  · rintro (⟨_, _, at_, opens, ⟨has, rfl⟩ | ⟨has, rfl⟩⟩ | ⟨none, rfl⟩ | ⟨_, _, at_, ⟨_, blank, opens⟩, rfl⟩)
    · exact .latest at_ opens has
    · exact .scratch at_ opens has
    · exact .noUser none
    · exact .added at_ blank opens
  · rintro (⟨at_, opens, has⟩ | ⟨at_, opens, has⟩ | none | ⟨at_, blank, opens⟩)
    · exact .inl ⟨_, _, at_, opens, .inl ⟨has, rfl⟩⟩
    · exact .inl ⟨_, _, at_, opens, .inr ⟨has, rfl⟩⟩
    · exact .inr (.inl ⟨none, rfl⟩)
    · exact .inr (.inr ⟨_, _, at_, ⟨_, blank, opens⟩, rfl⟩)

/-! ## The order of a report -/

/-- The place in the registry of the rule of that name. -/
def place (id : String) : Nat := registry.findIdx (·.id == id)

/-- Whether a finding stands above another of its rule: on an earlier line, or on the same line as a
warning above a note. -/
def Above (a b : Finding) : Prop :=
  a.line < b.line ∨ a.line = b.line ∧ a.severity = .warning ∧ b.severity = .info

/-- Whether a finding comes before another in a report. -/
def Precedes (a b : Finding) : Prop :=
  place a.rule < place b.rule ∨ place a.rule = place b.rule ∧ Above a b

theorem Precedes.ne {a b : Finding} (h : Precedes a b) : a ≠ b := by
  rintro rfl
  obtain lower | ⟨-, lower | ⟨-, warning, info⟩⟩ := h
  · exact Nat.lt_irrefl _ lower
  · cases hl : a.line <;> simp [hl] at lower
  · rw [warning] at info; cases info

/-- The findings of a rule on single lines stand in the order of the lines, if those of one line bear
its number and are in order. -/
theorem pairwise_checkEach {checkLine : Nat → String → List Finding}
    (numbered : ∀ number line, ∀ finding ∈ checkLine number line, finding.line = some number)
    (sorted : ∀ number line, (checkLine number line).Pairwise Above) (first : Nat)
    (lines : List String) : (checkEach checkLine first lines).Pairwise Above := by
  induction lines generalizing first with
  | nil => exact .nil
  | cons head rest ih =>
    refine List.pairwise_append.2 ⟨sorted first head, ih (first + 1), fun a ha b hb => ?_⟩
    obtain ⟨i, line, -, found⟩ := mem_checkEach_from.1 hb
    have lower : first < first + 1 + i := by omega
    exact .inl (by simpa [numbered _ _ _ ha, numbered _ _ _ found] using lower)

/-- What a report needs of each rule: it puts its own name on its findings, and lists them from the
top of the manifest to its end. -/
structure Orderly (rule : Rule) : Prop where
  own : ∀ lines, ∀ finding ∈ rule.check lines, finding.rule = rule.id
  sorted : ∀ lines, (rule.check lines).Pairwise Above

theorem orderly_baseImage : Orderly BaseImage.rule where
  own lines finding mem := by
    obtain ⟨_, _, _, _, ⟨_, rfl⟩ | ⟨_, rfl⟩⟩ := mem_baseImage.1 mem <;> rfl
  sorted lines := by
    refine pairwise_checkEach (fun number line finding mem => ?_) (fun number line => ?_) 1 lines
    · simp only [BaseImage.checkLine, List.mem_ite_nil_right, List.mem_append,
        List.mem_singleton] at mem
      obtain ⟨-, ⟨-, rfl⟩ | ⟨-, rfl⟩⟩ := mem <;> rfl
    · simp only [BaseImage.checkLine]
      repeat' split
      all_goals simp [Above, BaseImage.latest, BaseImage.scratch]

theorem orderly_nonRootUser : Orderly NonRootUser.rule where
  own lines finding mem := by rw [(mem_nonRootUser.1 mem).2]; rfl
  sorted lines := by
    simp only [NonRootUser.rule, NonRootUser.check]
    split <;> simp

theorem orderly_addOrCopy : Orderly AddOrCopy.rule where
  own lines finding mem := by obtain ⟨_, _, _, _, rfl⟩ := mem_addOrCopy.1 mem; rfl
  sorted lines := by
    refine pairwise_checkEach (fun number line finding mem => ?_) (fun number line => ?_) 1 lines
    · rw [AddOrCopy.checkLine, List.mem_ite_nil_right, List.mem_singleton] at mem
      rw [mem.2, AddOrCopy.added]
    · rw [AddOrCopy.checkLine]
      split <;> simp

theorem orderly_of_mem_registry {rule : Rule} (h : rule ∈ registry) : Orderly rule := by
  simp only [registry, List.mem_cons, List.not_mem_nil, or_false] at h
  obtain rfl | rfl | rfl := h
  · exact orderly_baseImage
  · exact orderly_nonRootUser
  · exact orderly_addOrCopy

theorem pairwise_place_registry : registry.Pairwise fun a b => place a.id < place b.id := by
  decide

theorem pairwise_checkAll (lines : List String) : (checkAll lines).Pairwise Precedes := by
  refine List.pairwise_flatMap.2 ⟨fun rule mem => ?_, ?_⟩
  · have orderly := orderly_of_mem_registry mem
    refine (orderly.sorted lines).imp_of_mem fun {a b} ha hb above => .inr ⟨?_, above⟩
    rw [orderly.own lines a ha, orderly.own lines b hb]
  · refine pairwise_place_registry.imp_of_mem fun {r s} hr hs lower a ha b hb => .inl ?_
    rwa [(orderly_of_mem_registry hr).own lines a ha, (orderly_of_mem_registry hs).own lines b hb]

/-- Of the findings of some rules, those under the name of one rule are its own, if no two rules bear
one name. -/
theorem filter_flatMap_check {rules : List Rule} (distinct : rules.Pairwise (·.id ≠ ·.id))
    (own : ∀ rule ∈ rules, ∀ lines, ∀ finding ∈ rule.check lines, finding.rule = rule.id)
    {rule : Rule} (h : rule ∈ rules) (lines : List String) :
    (rules.flatMap (·.check lines)).filter (·.rule == rule.id) = rule.check lines := by
  induction rules with
  | nil => cases h
  | cons head rest ih =>
    obtain ⟨apart, distinct⟩ := List.pairwise_cons.1 distinct
    have ownHead := own head List.mem_cons_self lines
    have ownRest := fun other ho => own other (List.mem_cons_of_mem head ho)
    rw [List.flatMap_cons, List.filter_append]
    obtain rfl | inRest := List.mem_cons.1 h
    · have mine : (rule.check lines).filter (·.rule == rule.id) = rule.check lines :=
        List.filter_eq_self.2 fun finding mem => beq_iff_eq.2 (ownHead finding mem)
      have others : (rest.flatMap (·.check lines)).filter (·.rule == rule.id) = [] := by
        rw [List.filter_eq_nil_iff]
        intro finding mem same
        obtain ⟨other, ho, found⟩ := List.mem_flatMap.1 mem
        exact apart other ho (by rw [← beq_iff_eq.1 same, ownRest other ho lines finding found])
      rw [mine, others, List.append_nil]
    · have foreign : (head.check lines).filter (·.rule == rule.id) = [] := by
        rw [List.filter_eq_nil_iff]
        intro finding mem same
        exact apart rule inRest (by rw [← ownHead finding mem, beq_iff_eq.1 same])
      rw [foreign, ih distinct ownRest inRest, List.nil_append]

theorem filter_checkAll {rule : Rule} (h : rule ∈ registry) (lines : List String) :
    (checkAll lines).filter (·.rule == rule.id) = rule.check lines := by
  refine filter_flatMap_check (pairwise_place_registry.imp fun {a b} lower same => ?_)
    (fun _ mem => (orderly_of_mem_registry mem).own) h lines
  exact Nat.lt_irrefl _ (same ▸ lower)

/-- **The report of a manifest.** The rules report what there is to report and nothing else, nothing
twice, by rising rules, then lines, then warnings above notes; and what bears the name of a rule is
what that rule reports by itself. -/
theorem checkAll_exact (lines : List String) :
    (checkAll lines).Nodup ∧ (checkAll lines).Pairwise Precedes ∧
      (∀ finding, finding ∈ checkAll lines ↔ Due lines finding) ∧
      ∀ rule ∈ registry, (checkAll lines).filter (·.rule == rule.id) = rule.check lines :=
  ⟨(pairwise_checkAll lines).imp fun before => before.ne, pairwise_checkAll lines,
    fun _ => mem_checkAll, fun _ mem => filter_checkAll mem lines⟩

/-- The last rule of the registry has its say apart from what the first two report. -/
theorem checkAll_exact_adding :
    AddOrCopy.rule ∈ registry ∧
      (checkAll ["FROM scratch:latest", "\x1f ADD x /x"]).filter (·.rule == AddOrCopy.rule.id) =
        [AddOrCopy.added 2] := by
  have mem : AddOrCopy.rule ∈ registry := by simp [registry]
  exact ⟨mem, ((checkAll_exact _).2.2.2 _ mem).trans (by decide)⟩

/-! ## Parts of a report -/

/-- What a report says under the name of a rule. -/
def saidBy (rule : Rule) (lines : List String) : List Finding :=
  (checkAll lines).filter (·.rule == rule.id)

theorem saidBy_eq {rule : Rule} (h : rule ∈ registry) (lines : List String) :
    saidBy rule lines = rule.check lines :=
  filter_checkAll h lines

/-- Whether a report complains that no user is named. -/
def Userless (lines : List String) : Prop := NonRootUser.noUser ∈ checkAll lines

instance (lines : List String) : Decidable (Userless lines) :=
  inferInstanceAs (Decidable (NonRootUser.noUser ∈ checkAll lines))

theorem userless_iff {lines : List String} :
    Userless lines ↔ ∀ line ∈ lines, ¬ "USER".toList <:+: line.toList := by
  have own : NonRootUser.rule ∈ registry := by simp [registry]
  have said : Userless lines ↔ NonRootUser.noUser ∈ saidBy NonRootUser.rule lines := by
    rw [saidBy, List.mem_filter]
    exact (and_iff_left (by decide)).symm
  rw [said, saidBy_eq own, mem_nonRootUser]
  exact and_iff_left rfl

/-- The rule on users complains once or not at all. -/
theorem check_nonRootUser (lines : List String) :
    NonRootUser.rule.check lines = if Userless lines then [NonRootUser.noUser] else [] := by
  have named : (lines.any fun line => Text.contains "USER".toList line.toList) = true ↔
      ¬ Userless lines := by
    rw [userless_iff]
    simp [Text.contains_iff_isInfix]
  simp only [NonRootUser.rule, NonRootUser.check, named, ite_not]

end ManifestLint.Rule
