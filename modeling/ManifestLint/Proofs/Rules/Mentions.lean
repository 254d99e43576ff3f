import Mathlib.Algebra.GroupWithZero.Nat
import Mathlib.Data.List.Infix
import ManifestLint.Proofs.Lines.Pieces
import ManifestLint.Proofs.Rules.Findings

/-!
# Mentions in a text and in its lines

Cutting a text into lines keeps every word without a break character whole: each mention of it in the
text is a mention in one line, and none comes about by the cutting. So looking for a user line by line is
looking for one in the text.

* `mentions`: how often a word stands in a text;
* `mentions_append_cons`: what stands around a character that the word lacks;
* `sum_mentions_linesFrom`: the mentions in the lines are those in the text;
* `noUser_mem_checkAll_splitLines`: the rule on users, said of the whole text.
-/

namespace ManifestLint

namespace Text

/-- How often a word stands in a text, where mentions may overlap. -/
def mentions (word text : List Char) : Nat := text.tails.countP word.isPrefixOf

variable {word : List Char}

theorem mentions_nil (nonempty : word ≠ []) : mentions word [] = 0 := by
  cases word with
  | nil => exact absurd rfl nonempty
  | cons c rest => rfl

theorem mentions_cons (word : List Char) (c : Char) (rest : List Char) :
    mentions word (c :: rest) = mentions word rest + if word <+: c :: rest then 1 else 0 := by
  simp only [mentions, List.tails_cons, List.countP_cons, List.isPrefixOf_iff_prefix]

theorem mentions_pos_iff {text : List Char} : 0 < mentions word text ↔ word <:+: text := by
  rw [mentions, List.countP_pos_iff, List.infix_iff_prefix_suffix]
  constructor
  · rintro ⟨tail, mem, opens⟩
    exact ⟨tail, List.isPrefixOf_iff_prefix.1 opens, (List.mem_tails _ _).1 mem⟩
  · rintro ⟨tail, opens, ends⟩
    exact ⟨tail, (List.mem_tails _ _).2 ends, List.isPrefixOf_iff_prefix.2 opens⟩

/-- A word that opens a text ends before the first character that it lacks. -/
theorem prefix_append_cons_iff {c : Char} (lacks : c ∉ word) (before after : List Char) :
    word <+: before ++ c :: after ↔ word <+: before := by
  constructor
  · intro opens
    obtain short | long := Nat.lt_or_ge before.length word.length
    · have whole : before ++ [c] <+: before ++ c :: after := ⟨after, by simp⟩
      have reached : before ++ [c] <+: word :=
        List.prefix_of_prefix_length_le whole opens (by rw [List.length_append]; exact short)
      exact absurd (reached.subset (by simp)) lacks
    · exact List.prefix_of_prefix_length_le opens (List.prefix_append _ _) long
  · intro opens
    exact opens.trans (List.prefix_append _ _)

/-- Around a character that a word lacks, the word stands before it or behind it. -/
theorem mentions_append_cons (nonempty : word ≠ []) {c : Char} (lacks : c ∉ word)
    (before after : List Char) :
    mentions word (before ++ c :: after) = mentions word before + mentions word after := by
  have opens := prefix_append_cons_iff lacks
  induction before with
  | nil =>
    have none : ¬ word <+: c :: after := fun here => nonempty (List.prefix_nil.1 ((opens [] after).1 here))
    rw [List.nil_append, mentions_cons, if_neg none, mentions_nil nonempty, Nat.zero_add, Nat.add_zero]
  | cons d rest ih =>
    have here : word <+: d :: (rest ++ c :: after) ↔ word <+: d :: rest := opens (d :: rest) after
    rw [List.cons_append, mentions_cons, mentions_cons, ih]
    simp only [here]
    omega

/-- The mentions of a word without a break in the lines of a text are those in the text. -/
theorem sum_mentions_linesFrom (nonempty : word ≠ []) (unbroken : ∀ c ∈ word, c ∉ breaks)
    (line rest : List Char) :
    ((linesFrom line rest).map (mentions word)).sum = mentions word (line ++ rest) := by
  have lacks {c : Char} (isBreak : c ∈ breaks) : c ∉ word := fun mem => unbroken c mem isBreak
  induction line, rest using linesFrom.induct with
  | case1 => simp [linesFrom_nil, mentions_nil nonempty]
  | case2 line nonempty => simp [linesFrom_nil, nonempty]
  | case3 line rest ih =>
    have cut : linesFrom line ('\r' :: '\n' :: rest) = line :: linesFrom [] rest := rfl
    have between : mentions word ('\n' :: rest) = mentions word [] + mentions word rest :=
      mentions_append_cons nonempty (lacks (by decide)) [] rest
    rw [cut, List.map_cons, List.sum_cons, ih, mentions_append_cons nonempty (lacks (by decide)),
      between, mentions_nil nonempty, Nat.zero_add, List.nil_append]
  | case4 line c rest notPair isBreak ih =>
    rw [linesFrom_cons (fun tail => notPair tail), if_pos isBreak, List.map_cons, List.sum_cons, ih,
      mentions_append_cons nonempty (lacks (isLineBreak_iff_mem_breaks.1 isBreak)), List.nil_append]
  | case5 line c rest notPair isBreak ih =>
    rw [linesFrom_cons (fun tail => notPair tail), if_neg isBreak, ih, List.append_assoc,
      List.singleton_append]

theorem sum_mentions_splitLines (nonempty : word ≠ []) (unbroken : ∀ c ∈ word, c ∉ breaks)
    (text : String) :
    ((splitLines text).map fun line => mentions word line.toList).sum = mentions word text.toList := by
  rw [← List.nil_append text.toList, ← sum_mentions_linesFrom nonempty unbroken, splitLines_eq,
    List.map_map]
  congr 2
  funext line
  simp

/-- A text mentions a word without a break if one of its lines does. -/
theorem exists_infix_line_iff (nonempty : word ≠ []) (unbroken : ∀ c ∈ word, c ∉ breaks)
    {text : String} :
    (∃ line ∈ splitLines text, word <:+: line.toList) ↔ word <:+: text.toList := by
  rw [← mentions_pos_iff, ← sum_mentions_splitLines nonempty unbroken, List.sum_pos_iff_exists_pos_nat]
  simp [mentions_pos_iff]

end Text

namespace Rule

open Text

/-- **A user is looked for in the text.** The report of a text complains that no user is named, once, if the
text has no mention of one anywhere; and each mention in it is one in exactly one of its lines. -/
theorem noUser_mem_checkAll_splitLines (text : String) :
    (NonRootUser.noUser ∈ checkAll (splitLines text) ↔ ¬ "USER".toList <:+: text.toList) ∧
    saidBy NonRootUser.rule (splitLines text) =
      (if "USER".toList <:+: text.toList then [] else [NonRootUser.noUser]) ∧
    ((splitLines text).map fun line => mentions "USER".toList line.toList).sum =
      mentions "USER".toList text.toList := by
  have nonempty : "USER".toList ≠ [] := by decide
  have unbroken : ∀ c ∈ "USER".toList, c ∉ breaks := by simp [breaks]
  have userless : Userless (splitLines text) ↔ ¬ "USER".toList <:+: text.toList := by
    rw [userless_iff, ← exists_infix_line_iff nonempty unbroken]
    simp only [not_exists, not_and]
  refine ⟨userless, ?_, sum_mentions_splitLines nonempty unbroken text⟩
  rw [saidBy_eq (by simp [registry]), check_nonRootUser]
  simp only [userless, ite_not]

end Rule

end ManifestLint
