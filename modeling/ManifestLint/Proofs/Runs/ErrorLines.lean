import ManifestLint.Proofs.Paths.Components
import ManifestLint.Proofs.Rules.Mentions
import ManifestLint.Proofs.Runs.Outcomes

/-!
# Lines that are marked as errors

All that a run writes besides its output is one text, and whoever reads it line by line takes a line for
an error if it begins with the error mark. No event of the log begins so. But paths are written as they
are, and where a line feed stands in one with the mark right behind it, a line of the log is marked all
the same.

* `markedLines`, `Outcome.errorLines`: the marked lines of a text, and of all that a run writes;
* `errorLines_eq`: those of a run are those of its events and those of its message;
* `markedLines_loaded` and its like: an event has none if the path in it bears no mark.
-/

namespace ManifestLint

/-! ## Marked lines -/

/-- The first segment of a text opens it, and each other stands in it behind a separator. -/
theorem Text.exists_segments_eq_cons (separator : Char) (text : List Char) :
    ∃ first others, segments separator text = first :: others ∧ first <+: text ∧
      ∀ segment ∈ others, separator :: segment <:+: text := by
  induction text with
  | nil => exact ⟨[], [], rfl, List.prefix_rfl, by simp⟩
  | cons c rest ih =>
    obtain ⟨first, others, cut, opens, behind⟩ := ih
    have later : ∀ segment ∈ others, separator :: segment <:+: c :: rest := by
      intro segment mem
      exact (behind segment mem).trans (List.suffix_cons c rest).isInfix
    by_cases here : c = separator
    · refine ⟨[], first :: others, by rw [segments, if_pos here, cut], List.nil_prefix, ?_⟩
      intro segment mem
      obtain rfl | mem := List.mem_cons.1 mem
      · rw [← here]
        exact (List.cons_prefix_cons.2 ⟨rfl, opens⟩).isInfix
      · exact later segment mem
    · refine ⟨c :: first, others, by rw [segments, if_neg here, cut], ?_, later⟩
      exact List.cons_prefix_cons.2 ⟨rfl, opens⟩

namespace Program

variable {terminals : Terminals}

/-- The lines of a text that are marked as errors. -/
def markedLines (terminals : Terminals) (text : String) : List String :=
  ((Text.segments '\n' text.toList).map String.ofList).filter (marked terminals)

/-- Whether a line feed stands in a text with the error mark right behind it. -/
def BearsMark (terminals : Terminals) (text : List Char) : Prop :=
  '\n' :: (errorMark terminals).toList <:+: text

theorem markedLines_append_line (front back : String) :
    markedLines terminals (front ++ "\n" ++ back) =
      markedLines terminals front ++ markedLines terminals back := by
  have written : (front ++ "\n" ++ back).toList = front.toList ++ '\n' :: back.toList := by simp
  rw [markedLines, written, Text.segments_append_separator, List.map_append, List.filter_append]
  rfl

theorem markedLines_eq_nil {text : String} (unmarked : marked terminals text ≠ true)
    (bare : ¬ BearsMark terminals text.toList) : markedLines terminals text = [] := by
  obtain ⟨first, others, cut, opens, behind⟩ := Text.exists_segments_eq_cons '\n' text.toList
  rw [markedLines, cut, List.filter_eq_nil_iff]
  intro line mem
  obtain ⟨segment, among, rfl⟩ := List.mem_map.1 mem
  rw [marked, String.toList_ofList, List.isPrefixOf_iff_prefix]
  intro mark
  obtain rfl | later := List.mem_cons.1 among
  · exact unmarked (List.isPrefixOf_iff_prefix.2 (mark.trans opens))
  · exact bare ((List.cons_prefix_cons.2 ⟨rfl, mark⟩).isInfix.trans (behind segment later))

/-! ## Events -/

theorem space_not_mem_errorMark : ' ' ∉ '\n' :: (errorMark terminals).toList := by
  unfold errorMark
  split <;> decide

theorem not_bearsMark_of_not_mem {text : List Char} (unbroken : '\n' ∉ text) :
    ¬ BearsMark terminals text :=
  fun bears => unbroken (bears.subset List.mem_cons_self)

/-- What stands before the first line feed of a text has no part in what it bears. -/
theorem bearsMark_append_iff {front : List Char} (unbroken : '\n' ∉ front) (back : List Char) :
    BearsMark terminals (front ++ back) ↔ BearsMark terminals back := by
  unfold BearsMark
  induction front with
  | nil => rfl
  | cons c front ih =>
    obtain ⟨apart, later⟩ := not_or.1 (mt List.mem_cons.2 unbroken)
    have elsewhere : ¬ '\n' :: (errorMark terminals).toList <+: c :: (front ++ back) := by
      intro opens
      exact apart (List.cons_prefix_cons.1 opens).1
    rw [List.cons_append, List.infix_cons_iff, or_iff_right elsewhere, ih later]

/-- A text that shows a path before a space bears a mark only in that path. -/
theorem not_bearsMark_field {front path back : List Char} (unbroken : '\n' ∉ front)
    (unbrokenBack : '\n' ∉ back) (bare : ¬ BearsMark terminals path) :
    ¬ BearsMark terminals (front ++ (path ++ ' ' :: back)) := by
  have bareBack : ¬ BearsMark terminals back := not_bearsMark_of_not_mem unbrokenBack
  rw [bearsMark_append_iff unbroken]
  unfold BearsMark at bare bareBack ⊢
  rw [← Text.mentions_pos_iff] at bare bareBack ⊢
  rw [Text.mentions_append_cons (List.cons_ne_nil _ _) space_not_mem_errorMark]
  omega

theorem not_mem_toString (n : Nat) : '\n' ∉ (toString n).toList := by
  change '\n' ∉ (String.ofList (Nat.toDigits 10 n)).toList
  rw [String.toList_ofList]
  intro mem
  have digit := Nat.isDigit_of_mem_toDigits (by decide) (by decide) mem
  exact absurd digit (by decide)

theorem not_mem_level (level : Log.Level) : '\n' ∉ (level.name ++ " ").toList := by
  cases level <;> decide

/-- An event that shows a path and a number has no marked line if the path bears no mark. -/
theorem markedLines_of_shown (event : Log.Event) (word field : String) {path : Path} {n : Nat}
    (shown : event.message = word ++ path.text ++ field ++ toString n) (unbroken : '\n' ∉ word.toList)
    (apart : field.toList.head? = some ' ') (unbrokenField : '\n' ∉ field.toList)
    (bare : ¬ BearsMark terminals path.text.toList) : markedLines terminals event.text = [] := by
  obtain ⟨rest, spaced⟩ := List.head?_eq_some_iff.1 apart
  have written : event.text.toList = ((event.level.name ++ " ").toList ++ word.toList) ++
      (path.text.toList ++ ' ' :: (rest ++ (toString n).toList)) := by
    rw [Log.Event.text, shown]
    simp [spaced]
  have lead := not_mem_level event.level
  have count := not_mem_toString n
  rw [spaced] at unbrokenField
  refine markedLines_eq_nil (not_marked_text terminals event) ?_
  rw [written]
  refine not_bearsMark_field ?_ ?_ bare
  · exact List.not_mem_append lead unbroken
  · exact List.not_mem_append (mt (List.mem_cons_of_mem ' ') unbrokenField) count

theorem markedLines_checking {root : Path} (bare : ¬ BearsMark terminals root.text.toList) (n : Nat) :
    markedLines terminals (Log.Event.checking root n).text = [] :=
  markedLines_of_shown (.checking root n) "checking manifests root=" " manifests=" rfl (by decide)
    (by decide) (by decide) bare

/-- The rules have names of one line. -/
theorem markedLines_evaluated {rule : Rule} (mem : rule ∈ Rule.registry) (n : Nat) :
    markedLines terminals (Log.Event.evaluated rule.id n).text = [] := by
  have named : '\n' ∉ rule.id.toList := by
    revert rule
    decide
  have word : '\n' ∉ "rule evaluated rule=\"".toList := by decide
  have field : '\n' ∉ "\" findings=".toList := by decide
  have message := List.not_mem_append (List.not_mem_append (List.not_mem_append word named) field)
    (not_mem_toString n)
  simp only [← String.toList_append] at message
  refine markedLines_eq_nil (not_marked_text terminals _) (not_bearsMark_of_not_mem ?_)
  rw [Log.Event.text, String.toList_append]
  exact List.not_mem_append (not_mem_level .debug) message

/-- All that the check of a manifest tells. -/
theorem mem_events_run {workspace : Workspace} {path : Path} {event : Log.Event}
    (mem : event ∈ ((Checker.mk path).run workspace).events) :
    (∃ n, event = .loaded path n) ∨ (∃ rule ∈ Rule.registry, ∃ n, event = .evaluated rule.id n) ∨
      ∃ n, event = .checked path n := by
  unfold Checker.run at mem
  cases loaded : workspace.loadManifest path with
  | error error => simp [loaded] at mem
  | ok manifest =>
    simp only [loaded, Logged.events_bind, Logged.log, Checker.evaluate, Logged.events_pure,
      List.mem_append, List.mem_singleton, List.mem_map, List.not_mem_nil, or_false] at mem
    obtain rfl | ⟨rule, listed, rfl⟩ | rfl := mem
    · exact .inl ⟨_, rfl⟩
    · exact .inr (.inl ⟨rule, listed, _, rfl⟩)
    · exact .inr (.inr ⟨_, rfl⟩)

/-- The check of a manifest tells everything at one level. -/
theorem level_of_mem_events_run {workspace : Workspace} {path : Path} {event : Log.Event}
    (mem : event ∈ ((Checker.mk path).run workspace).events) : event.level = .debug := by
  obtain ⟨n, rfl⟩ | ⟨rule, -, n, rfl⟩ | ⟨n, rfl⟩ := mem_events_run mem <;> rfl

theorem markedLines_of_mem_events_run {workspace : Workspace} {path : Path} {event : Log.Event}
    (mem : event ∈ ((Checker.mk path).run workspace).events)
    (bare : ¬ BearsMark terminals path.text.toList) : markedLines terminals event.text = [] := by
  obtain ⟨n, rfl⟩ | ⟨rule, listed, n, rfl⟩ | ⟨n, rfl⟩ := mem_events_run mem
  · exact markedLines_of_shown (.loaded path n) "loaded manifest path=" " lines=" rfl (by decide)
      (by decide) (by decide) bare
  · exact markedLines_evaluated listed n
  · exact markedLines_of_shown (.checked path n) "manifest checked path=" " findings=" rfl (by decide)
      (by decide) (by decide) bare

end Program

/-! ## Runs -/

namespace Outcome

open Program

/-- The lines that are marked as errors among all that a run writes besides its output. -/
def errorLines (terminals : Terminals) (outcome : Outcome) : List String :=
  markedLines terminals outcome.messages

theorem errorLines_eq (terminals : Terminals) (outcome : Outcome) :
    outcome.errorLines terminals =
      outcome.log.flatMap (fun event => markedLines terminals event.text) ++
        markedLines terminals outcome.message := by
  obtain ⟨code, output, log, message⟩ := outcome
  rw [errorLines, messages]
  dsimp only
  induction log with
  | nil => simp
  | cons event rest ih =>
    rw [List.map_cons, String.join_cons, String.append_assoc, markedLines_append_line, ih,
      List.flatMap_cons, List.append_assoc]

end Outcome

end ManifestLint
