import Mathlib.Data.List.Infix
import ManifestLint.Proofs.Rules.Findings

/-!
# Words in either case

The rule on base images looks for its words in the lower-case form of a line. That form can be longer than
the line, it hangs on what stands around a sigma, and it can turn other letters into ASCII ones, yet only
into `i` and `k`. So a word of other ASCII letters stands in the lower-case form if the line itself spells
it, in capitals or not. Main statements: `infix_lowercase_iff_spells`, `mem_baseImage_iff_spells`.

* `IsPlain`: the characters that only ASCII ones become;
* `caseRanges_foreign`, `lowerFrom_cons_cases`: what a character becomes;
* `prefix_lowerFrom_iff`, `infix_lowerFrom_iff`: a word of such characters in the lower-case form.
-/

namespace ManifestLint

namespace Text

/-- Whether consecutive characters of a text are a word, in whichever case their ASCII letters stand. -/
def Spells (text word : List Char) : Prop :=
  ∃ window, window <:+: text ∧ window.map Char.toLower = word

theorem spells_iff {text word : List Char} : Spells text word ↔ word <:+: text.map Char.toLower := by
  rw [List.infix_map_iff]
  simp only [Spells, eq_comm]

instance (text word : List Char) : Decidable (Spells text word) :=
  decidable_of_iff _ spells_iff.symm

/-! ## What a character becomes -/

def IsAscii (c : Char) : Prop := c.toNat < 0x80

instance (c : Char) : Decidable (IsAscii c) := inferInstanceAs (Decidable (c.toNat < 0x80))

/-- The characters that are the lower-case form of ASCII characters only. -/
def IsPlain (c : Char) : Prop := IsAscii c ∧ c ≠ 'i' ∧ c ≠ 'k'

instance (c : Char) : Decidable (IsPlain c) :=
  inferInstanceAs (Decidable (IsAscii c ∧ c ≠ 'i' ∧ c ≠ 'k'))

/-- Above ASCII are the code points of a range and their lower-case forms, which are characters. Only the
Kelvin sign becomes an ASCII letter. -/
def CaseRange.IsForeign (range : CaseRange) : Prop :=
  0x80 ≤ range.first ∧
    (0x80 ≤ range.lower ∧ (range.lower + (range.last - range.first) < 0xd800 ∨
        0xe000 ≤ range.lower ∧ range.lower + (range.last - range.first) < 0x110000) ∨
      range = ⟨0x212a, 0x212a, 1, 0x6b⟩)

instance (range : CaseRange) : Decidable range.IsForeign := by
  unfold CaseRange.IsForeign
  infer_instance

/-- Of ASCII characters only the capital letters have another lower-case form. -/
theorem caseRanges_foreign :
    ∃ foreign, caseRanges = ⟨0x41, 0x5a, 1, 0x61⟩ :: foreign ∧ ∀ range ∈ foreign, range.IsForeign :=
  ⟨_, rfl, by decide +kernel⟩

theorem toLower_of_not_capital {c : Char} (h : ¬ (0x41 ≤ c.toNat ∧ c.toNat ≤ 0x5a)) :
    c.toLower = c := by
  unfold Char.toLower
  rw [dif_neg]
  rintro ⟨first, last⟩
  exact h ⟨UInt32.le_iff_toNat_le.1 first, UInt32.le_iff_toNat_le.1 last⟩

theorem toLower_of_capital {c : Char} (h : 0x41 ≤ c.toNat ∧ c.toNat ≤ 0x5a) :
    c.toLower = Char.ofNat (0x61 + (c.toNat - 0x41)) := by
  have letters : ∀ n < 26, (Char.ofNat (0x41 + n)).toLower = Char.ofNat (0x61 + n) := by decide
  rw [← letters (c.toNat - 0x41) (by omega), Nat.add_sub_cancel' h.1, Char.ofNat_toNat]

theorem lowerChar_of_isAscii {c : Char} (ascii : IsAscii c) : lowerChar c = [c.toLower] := by
  obtain ⟨foreign, table, above⟩ := caseRanges_foreign
  have undotted : c ≠ '\u0130' := by
    rintro rfl
    exact absurd ascii (by decide)
  have none : foreign.findSome? (·.lowerOf? c.toNat) = none := by
    rw [List.findSome?_eq_none_iff]
    intro range mem
    have low : c.toNat < range.first := Nat.lt_of_lt_of_le ascii (above range mem).1
    exact if_neg fun ⟨first, _⟩ => absurd first (Nat.not_le.2 low)
  rw [lowerChar, if_neg undotted, table, List.findSome?_cons, none]
  by_cases capital : 0x41 ≤ c.toNat ∧ c.toNat ≤ 0x5a
  · rw [toLower_of_capital capital, CaseRange.lowerOf?, if_pos ⟨capital.1, capital.2, Nat.mod_one _⟩]
    rfl
  · have other : ¬ (0x41 ≤ c.toNat ∧ c.toNat ≤ 0x5a ∧ (c.toNat - 0x41) % 1 = 0) :=
      fun ⟨first, last, _⟩ => capital ⟨first, last⟩
    rw [toLower_of_not_capital capital, CaseRange.lowerOf?, if_neg other]
    rfl

theorem toNat_ofNat_of_isValidChar {n : Nat} (valid : n.isValidChar) : (Char.ofNat n).toNat = n := by
  rw [Char.ofNat, dif_pos valid]
  rfl

/-- The lower-case form that a range above ASCII gives is not plain. -/
theorem not_isPlain_of_lowerOf? {range : CaseRange} (foreign : range.IsForeign) {code lower : Nat}
    (found : range.lowerOf? code = some lower) : ¬ IsPlain (Char.ofNat lower) := by
  unfold CaseRange.lowerOf? at found
  split at found
  · next inside =>
    cases found
    obtain ⟨-, ⟨high, fits⟩ | rfl⟩ := foreign
    · have valid : (range.lower + (code - range.first)).isValidChar := by
        unfold Nat.isValidChar
        omega
      rintro ⟨ascii, -⟩
      rw [IsAscii, toNat_ofNat_of_isValidChar valid] at ascii
      omega
    · have kelvin : code = 0x212a := by
        simp only at inside
        omega
      rw [kelvin]
      decide
  · cases found

theorem not_isPlain_of_mem_lowerChar {c d : Char} (above : ¬ IsAscii c) (mem : d ∈ lowerChar c) :
    ¬ IsPlain d := by
  obtain ⟨foreign, table, ranges⟩ := caseRanges_foreign
  unfold lowerChar at mem
  split at mem
  · have dotted : ∀ d ∈ ['i', '\u0307'], ¬ IsPlain d := by simp [IsPlain, IsAscii]
    exact dotted d mem
  · rw [List.mem_singleton] at mem
    subst mem
    cases found : caseRanges.findSome? (·.lowerOf? c.toNat) with
    | none => exact fun plain => above plain.1
    | some lower =>
      obtain ⟨range, listed, gives⟩ := List.exists_of_findSome?_eq_some found
      rw [table] at listed
      obtain rfl | listed := List.mem_cons.1 listed
      · unfold CaseRange.lowerOf? at gives
        split at gives
        · next inside => exact absurd (Nat.lt_of_le_of_lt inside.2.1 (by decide)) above
        · cases gives
      · exact not_isPlain_of_lowerOf? (ranges range listed) gives

theorem lowerChar_ne_nil (c : Char) : lowerChar c ≠ [] := by
  unfold lowerChar
  split
  · exact List.cons_ne_nil _ _
  · exact List.cons_ne_nil _ _

/-- An ASCII character becomes its own lower-case form, and any other becomes characters that are not
plain, one at least. -/
theorem lowerFrom_cons_cases (before : List Char) (c : Char) (rest : List Char) :
    (IsAscii c ∧ lowerFrom before (c :: rest) = c.toLower :: lowerFrom (c :: before) rest) ∨
    (¬ IsAscii c ∧ ∃ d block, (∀ e ∈ d :: block, ¬ IsPlain e) ∧
      lowerFrom before (c :: rest) = d :: block ++ lowerFrom (c :: before) rest) := by
  by_cases ascii : IsAscii c
  · have unlike : c ≠ 'Σ' := by
      rintro rfl
      exact absurd ascii (by decide)
    left
    rw [lowerFrom, if_neg unlike, lowerChar_of_isAscii ascii]
    exact ⟨ascii, rfl⟩
  · right
    refine ⟨ascii, ?_⟩
    rw [lowerFrom]
    split
    · have sigmas : ¬ IsPlain 'ς' ∧ ¬ IsPlain 'σ' := by decide
      refine ⟨_, [], ?_, rfl⟩
      rw [List.forall_mem_singleton]
      split
      · exact sigmas.1
      · exact sigmas.2
    · obtain ⟨d, block, form⟩ := List.exists_cons_of_ne_nil (lowerChar_ne_nil c)
      refine ⟨d, block, ?_, by rw [form]⟩
      rw [← form]
      exact fun e => not_isPlain_of_mem_lowerChar ascii

variable {word : List Char}

/-- What is above ASCII has no plain character for its lower case in ASCII either. -/
theorem not_isPlain_toLower {c : Char} (above : ¬ IsAscii c) : ¬ IsPlain c.toLower := by
  rw [toLower_of_not_capital fun capital => above (Nat.lt_of_le_of_lt capital.2 (by decide))]
  exact fun plain => above plain.1

theorem prefix_lowerFrom_iff (plain : ∀ c ∈ word, IsPlain c) (before text : List Char) :
    word <+: lowerFrom before text ↔ word <+: text.map Char.toLower := by
  induction text generalizing before word with
  | nil => rfl
  | cons c rest ih =>
    cases word with
    | nil => simp
    | cons w word =>
      obtain ⟨first, later⟩ := List.forall_mem_cons.1 plain
      rw [List.map_cons, List.cons_prefix_cons]
      obtain ⟨-, lowered⟩ | ⟨above, d, block, foreign, lowered⟩ := lowerFrom_cons_cases before c rest
      · rw [lowered, List.cons_prefix_cons, ih later]
      · have unlike : w ≠ d := by
          rintro rfl
          exact foreign w List.mem_cons_self first
        have apart : w ≠ c.toLower := by
          rintro rfl
          exact not_isPlain_toLower above first
        rw [lowered, List.cons_append, List.cons_prefix_cons]
        simp only [unlike, apart, false_and]

/-- Characters that a word lacks can stand in front of it. -/
theorem infix_append_iff_of_lacks (nonempty : word ≠ []) {block : List Char}
    (lacks : ∀ c ∈ block, c ∉ word) (text : List Char) : word <:+: block ++ text ↔ word <:+: text := by
  induction block with
  | nil => rfl
  | cons c block ih =>
    obtain ⟨first, later⟩ := List.forall_mem_cons.1 lacks
    have elsewhere : ¬ word <+: c :: (block ++ text) := by
      intro opens
      cases word with
      | nil => exact nonempty rfl
      | cons w word => exact first ((List.cons_prefix_cons.1 opens).1 ▸ List.mem_cons_self)
    rw [List.cons_append, List.infix_cons_iff, or_iff_right elsewhere, ih later]

theorem infix_lowerFrom_iff (nonempty : word ≠ []) (plain : ∀ c ∈ word, IsPlain c)
    (before text : List Char) :
    word <:+: lowerFrom before text ↔ word <:+: text.map Char.toLower := by
  induction text generalizing before with
  | nil => rfl
  | cons c rest ih =>
    obtain ⟨-, lowered⟩ | ⟨above, d, block, foreign, lowered⟩ := lowerFrom_cons_cases before c rest
    · have opens := prefix_lowerFrom_iff plain before (c :: rest)
      rw [lowered, List.map_cons] at opens
      rw [lowered, List.map_cons, List.infix_cons_iff, List.infix_cons_iff, opens, ih]
    · have lacks : ∀ e ∈ d :: block, e ∉ word := fun e mem here => foreign e mem (plain e here)
      have bare : ∀ e ∈ [c.toLower], e ∉ word := by
        rw [List.forall_mem_singleton]
        exact fun here => not_isPlain_toLower above (plain _ here)
      rw [lowered, infix_append_iff_of_lacks nonempty lacks, ih]
      exact (infix_append_iff_of_lacks nonempty bare _).symm

/-- A word of plain characters stands in the lower-case form of a text if the text spells it. -/
theorem infix_lowercase_iff_spells (plain : ∀ c ∈ word, IsPlain c) (text : List Char) :
    word <:+: lowercase text ↔ Spells text word := by
  rw [spells_iff]
  by_cases empty : word = []
  · simp [empty]
  · exact infix_lowerFrom_iff empty plain [] text

/-- The Kelvin sign is why not every ASCII letter is plain. -/
example : contains ['k'] (lowercase ['\u212a']) = true ∧ ¬ Spells ['\u212a'] ['k'] := by
  decide +kernel

end Text

namespace Rule

open Text

/-- **Base images in either case.** The tests on the lower-case form of a line come to looking for the words
in the line itself, in whichever case its ASCII letters stand. So the rule warns of a line that begins with
the keyword if the line spells the one word, and makes its note if it spells the other. -/
theorem mem_baseImage_iff_spells :
    (∀ line : List Char,
      (contains "latest".toList (lowercase line) = true ↔ Spells line "latest".toList) ∧
      (contains "scratch".toList (lowercase line) = true ↔ Spells line "scratch".toList)) ∧
    ∀ (lines : List String) (finding : Finding), finding ∈ BaseImage.rule.check lines ↔
      ∃ number line, IsLine lines number line ∧ "FROM".toList <+: line.toList ∧
        (Spells line.toList "latest".toList ∧ finding = BaseImage.latest number ∨
          Spells line.toList "scratch".toList ∧ finding = BaseImage.scratch number) := by
  have latest := @infix_lowercase_iff_spells "latest".toList (by simp [IsPlain, IsAscii])
  have scratch := @infix_lowercase_iff_spells "scratch".toList (by simp [IsPlain, IsAscii])
  refine ⟨fun line => ⟨?_, ?_⟩, fun lines finding => ?_⟩
  · rw [contains_iff_isInfix, latest]
  · rw [contains_iff_isInfix, scratch]
  · rw [mem_baseImage]
    simp only [latest, scratch]

end Rule

end ManifestLint
