import ManifestLint.Glob.Match
import ManifestLint.Proofs.Paths.Components

/-!
# Names among patterns

A segment without wildcards is a name and stands for itself, and nothing else is a name. So a pattern
behind a root without wildcards is the names of the root followed by the pattern itself.

* `ofChars?_of_plain`, `eq_of_ofChars?_eq_name`: which segments are names;
* `ofString?_absolute_append`: a pattern behind a root.
-/

namespace ManifestLint.Glob

/-- Whether a character makes a segment more than a name. A closing bracket alone does not. -/
def isWildcard (c : Char) : Bool := c == '*' || c == '?' || c == '['

/-- No character is a wildcard. -/
def Plain (text : List Char) : Prop := ∀ c ∈ text, isWildcard c = false

instance (text : List Char) : Decidable (Plain text) :=
  List.decidableBAll (fun c => isWildcard c = false) text

/-! ## Reading a segment -/

/-- How one part of a segment is read. -/
def tokenStep (tokens : List Token) : Reader Char (List Token ⊕ List Token) := do
  if ← Reader.atEnd then return .inr tokens.reverse
  match ← Reader.next with
  | '?' => return .inl (.anyChar :: tokens)
  | '*' => do
    guard ((← Reader.peek?) != some '*')
    return .inl (.anyText :: tokens)
  | '[' => return .inl ((← charClass) :: tokens)
  | c => return .inl (.char c :: tokens)

theorem segmentTokens_eq : segmentTokens = Reader.iterate tokenStep [] := rfl

theorem tokenStep_nil (tokens : List Token) : tokenStep tokens [] = some (.inr tokens.reverse, []) := rfl

theorem tokenStep_cons (tokens : List Token) (c : Char) (rest : List Char) :
    tokenStep tokens (c :: rest) =
      if c = '?' then some (.inl (.anyChar :: tokens), rest)
      else if c = '*' then
        if rest.head? = some '*' then none else some (.inl (.anyText :: tokens), rest)
      else if c = '[' then
        (charClass rest).map fun (token, later) => (.inl (token :: tokens), later)
      else some (.inl (.char c :: tokens), rest) := by
  dsimp only [tokenStep, Reader.atEnd, bind, StateT.bind, Option.bind, List.isEmpty, pure]
  rw [if_neg Bool.false_ne_true]
  dsimp only [StateT.bind, Reader.next, bind, Option.bind]
  split
  · rfl
  · change (StateT.bind (guard ((rest.head? != some '*') = true)) fun _ =>
      StateT.pure (Sum.inl (Token.anyText :: tokens)) : Reader Char (List Token ⊕ List Token)) rest =
        if rest.head? = some '*' then none else some (Sum.inl (Token.anyText :: tokens), rest)
    cases single : rest.head? != some '*' with
    | false =>
      rw [if_pos (by simpa using single)]
      rfl
    | true =>
      rw [if_neg (by simpa using single)]
      rfl
  · unfold StateT.bind
    cases charClass rest <;> rfl
  · next question star bracket =>
    rw [if_neg question, if_neg star, if_neg bracket]
    rfl

theorem tokenStep_of_plain (tokens : List Token) {c : Char} (h : isWildcard c = false)
    (rest : List Char) : tokenStep tokens (c :: rest) = some (.inl (.char c :: tokens), rest) := by
  simp only [isWildcard, Bool.or_eq_false_iff, beq_eq_false_iff_ne] at h
  rw [tokenStep_cons, if_neg h.1.2, if_neg h.1.1, if_neg h.2]

theorem char?_of_charClass {input rest : List Char} {token : Token}
    (h : charClass input = some (token, rest)) : token.char? = none := by
  have kind : ∃ negated ranges, token = .oneOf negated ranges := by
    unfold charClass at h
    obtain ⟨⟨negated, input⟩, -, h⟩ := Option.bind_eq_some_iff.1 h
    obtain ⟨⟨first, input⟩, -, h⟩ := Option.bind_eq_some_iff.1 h
    obtain ⟨⟨others, input⟩, -, h⟩ := Option.bind_eq_some_iff.1 h
    cases h
    exact ⟨_, _, rfl⟩
  obtain ⟨negated, ranges, rfl⟩ := kind
  rfl

/-- What reading a part can come to: the end, a part that a wildcard begins, or a character. -/
theorem tokenStep_cases {tokens : List Token} {text later : List Char}
    {outcome : List Token ⊕ List Token} (h : tokenStep tokens text = some (outcome, later)) :
    (text = [] ∧ outcome = .inr tokens.reverse) ∨
      ∃ c rest token, text = c :: rest ∧ outcome = .inl (token :: tokens) ∧
        (isWildcard c = true ∧ token.char? = none ∨ isWildcard c = false ∧ later = rest) := by
  cases text with
  | nil => rw [tokenStep_nil] at h; cases h; exact .inl ⟨rfl, rfl⟩
  | cons c rest =>
    refine .inr ⟨c, rest, ?_⟩
    cases wild : isWildcard c with
    | false =>
      rw [tokenStep_of_plain tokens wild] at h
      cases h
      exact ⟨.char c, rfl, rfl, .inr ⟨rfl, rfl⟩⟩
    | true =>
      rw [tokenStep_cons] at h
      split at h
      · cases h; exact ⟨.anyChar, rfl, rfl, .inl ⟨rfl, rfl⟩⟩
      · split at h
        · split at h
          · cases h
          · cases h; exact ⟨.anyText, rfl, rfl, .inl ⟨rfl, rfl⟩⟩
        · split at h
          · obtain ⟨⟨token, end_⟩, read, made⟩ := Option.map_eq_some_iff.1 h
            cases made
            exact ⟨token, rfl, rfl, .inl ⟨rfl, char?_of_charClass read⟩⟩
          · simp_all [isWildcard]

theorem iterate_tokenStep_of_plain {text : List Char} (h : Plain text) (tokens : List Token) :
    Reader.iterate tokenStep tokens text = some (tokens.reverse ++ text.map .char, []) := by
  induction text generalizing tokens with
  | nil => rw [Reader.iterate, tokenStep_nil]; simp
  | cons c rest ih =>
    rw [Reader.iterate, tokenStep_of_plain tokens (h c List.mem_cons_self)]
    dsimp only
    rw [if_pos (by simp), ih fun d mem => h d (List.mem_cons_of_mem _ mem)]
    simp

theorem mapM_char?_map (text : List Char) : (text.map Token.char).mapM Token.char? = some text := by
  induction text with
  | nil => rfl
  | cons c rest ih => rw [List.map_cons, List.mapM_cons, ih]; rfl

/-- Parts that were read stay what they are. -/
theorem prefix_of_iterate_tokenStep {tokens read : List Token} {text rest : List Char}
    (h : Reader.iterate tokenStep tokens text = some (read, rest)) : tokens.reverse <+: read := by
  fun_induction Reader.iterate tokenStep tokens text with
  | case1 => cases h
  | case2 tokens text result later step =>
    cases h
    obtain ⟨-, made⟩ | ⟨c, more, token, -, made, -⟩ := tokenStep_cases step
    · cases made
      exact List.prefix_rfl
    · cases made
  | case3 tokens text next later step shorter ih =>
    obtain ⟨-, made⟩ | ⟨c, more, token, -, made, -⟩ := tokenStep_cases step
    · cases made
    · cases made
      rw [List.reverse_cons] at ih
      exact (List.prefix_append _ _).trans (ih h)
  | case4 => cases h

/-- The parts that are read all stand for themselves only if they were read from a plain text. -/
theorem plain_of_iterate_tokenStep {tokens read : List Token} {text rest : List Char}
    (h : Reader.iterate tokenStep tokens text = some (read, rest))
    (literal : ∀ token ∈ read, token.char? ≠ none) : Plain text := by
  fun_induction Reader.iterate tokenStep tokens text with
  | case1 => cases h
  | case2 tokens text result later step =>
    obtain ⟨rfl, -⟩ | ⟨c, more, token, -, made, -⟩ := tokenStep_cases step
    · simp [Plain]
    · cases made
  | case3 tokens text next later step shorter ih =>
    obtain ⟨-, made⟩ | ⟨c, more, token, rfl, made, ⟨-, wild⟩ | ⟨plain, rfl⟩⟩ := tokenStep_cases step
    · cases made
    · cases made
      have kept : token ∈ read := (prefix_of_iterate_tokenStep h).subset (by simp)
      exact absurd wild (literal token kept)
    · exact List.forall_mem_cons.2 ⟨plain, ih h⟩
  | case4 => cases h

theorem char?_ne_none_of_mapM {tokens : List Token} {literal : List Char}
    (h : tokens.mapM Token.char? = some literal) : ∀ token ∈ tokens, token.char? ≠ none := by
  induction tokens generalizing literal with
  | nil => simp
  | cons token rest ih =>
    rw [List.mapM_cons] at h
    obtain ⟨c, first, h⟩ := Option.bind_eq_some_iff.1 h
    obtain ⟨more, later, -⟩ := Option.bind_eq_some_iff.1 h
    exact List.forall_mem_cons.2 ⟨by simp [first], ih later⟩

/-! ## Segments -/

theorem ofChars?_of_plain {text : List Char} (h : Plain text) :
    Segment.ofChars? text = some (.name text) := by
  have deep : text ≠ ['*', '*'] := by
    rintro rfl
    exact absurd (h '*' (by simp)) (by decide)
  rw [Segment.ofChars?, if_neg deep, segmentTokens_eq, Reader.readAll?,
    iterate_tokenStep_of_plain h]
  dsimp only [Option.map_some, List.reverse_nil, List.nil_append]
  rw [mapM_char?_map]

theorem eq_of_ofChars?_eq_name {text literal : List Char}
    (h : Segment.ofChars? text = some (.name literal)) : literal = text := by
  have plain : Plain text := by
    rw [Segment.ofChars?] at h
    split at h
    · cases h
    · obtain ⟨tokens, read, made⟩ := Option.map_eq_some_iff.1 h
      rw [Reader.readAll?, segmentTokens_eq] at read
      split at read
      · next whole =>
        cases read
        split at made
        · next all => exact plain_of_iterate_tokenStep whole (char?_ne_none_of_mapM all)
        · cases made
      · cases read
  rw [ofChars?_of_plain plain] at h
  cases h
  rfl

/-! ## Patterns -/

/-- The segments of a text that is not empty, without an empty one at the end. -/
theorem segmentTexts_of_ne_nil {text : List Char} (h : text ≠ []) :
    segmentTexts text = Path.withoutEnd (Text.segments '/' text) := by
  rw [segmentTexts, Path.withoutEnd]
  by_cases ends : (Text.segments '/' text).getLast? = some []
  · have many : 1 < (Text.segments '/' text).length := by
      obtain ⟨front, split⟩ := List.getLast?_eq_some_iff.1 ends
      have written := Text.joined_segments '/' text
      cases front with
      | nil => rw [split] at written; exact absurd written.symm h
      | cons first rest => simp [split]
    rw [if_pos ⟨ends, many⟩, if_pos ends]
  · rw [if_neg fun both => ends both.1, if_neg ends]

theorem collapse_names_append (names : List (List Char)) (segments : List Segment) :
    collapse (names.map .name ++ segments) = names.map .name ++ collapse segments := by
  induction names with
  | nil => rfl
  | cons name rest ih => rw [List.map_cons, List.cons_append, collapse, ih, List.cons_append]; simp

theorem mapM_ofChars?_of_plain {texts : List (List Char)} (h : ∀ text ∈ texts, Plain text) :
    texts.mapM Segment.ofChars? = some (texts.map .name) := by
  induction texts with
  | nil => rfl
  | cons text rest ih =>
    rw [List.mapM_cons, ofChars?_of_plain (h text List.mem_cons_self),
      ih fun other mem => h other (List.mem_cons_of_mem _ mem)]
    rfl

theorem mem_of_mem_collapse {segments : List Segment} {segment : Segment}
    (h : segment ∈ collapse segments) : segment ∈ segments := by
  fun_induction collapse segments with
  | case1 rest ih => exact List.mem_cons_of_mem _ (ih h)
  | case2 first rest single ih =>
    obtain rfl | h := List.mem_cons.1 h
    · exact List.mem_cons_self
    · exact List.mem_cons_of_mem _ (ih h)
  | case3 => cases h

theorem exists_mem_of_mapM_eq_some {α β : Type} {f : α → Option β} {inputs : List α}
    {results : List β} (h : inputs.mapM f = some results) {b : β} (mem : b ∈ results) :
    ∃ a ∈ inputs, f a = some b := by
  induction inputs generalizing results with
  | nil => cases h; cases mem
  | cons a rest ih =>
    rw [List.mapM_cons] at h
    obtain ⟨first, found, h⟩ := Option.bind_eq_some_iff.1 h
    obtain ⟨later, read, made⟩ := Option.bind_eq_some_iff.1 h
    cases made
    obtain rfl | mem := List.mem_cons.1 mem
    · exact ⟨a, List.mem_cons_self, found⟩
    · obtain ⟨other, mem, found⟩ := ih read mem
      exact ⟨other, List.mem_cons_of_mem _ mem, found⟩

theorem slashless_segmentTexts (text : List Char) : Path.Slashless (segmentTexts text) := by
  intro part mem
  rw [segmentTexts] at mem
  split at mem
  · exact Path.slashless_segments text part (List.dropLast_subset _ mem)
  · exact Path.slashless_segments text part mem

/-- A name in a pattern is a segment of its text. -/
theorem slashless_of_mem_pattern {text : String} {pattern : Pattern}
    (read : Pattern.ofString? text = some pattern) {literal : List Char}
    (mem : .name literal ∈ pattern.segments) : '/' ∉ literal := by
  rw [Pattern.ofString?] at read
  obtain ⟨segments, parsed, made⟩ := Option.bind_eq_some_iff.1 read
  cases made
  obtain ⟨part, found, h⟩ := exists_mem_of_mapM_eq_some parsed (mem_of_mem_collapse mem)
  rw [eq_of_ofChars?_eq_name h]
  exact slashless_segmentTexts _ part found

/-- The pattern of a relative text. -/
theorem ofString?_of_relative {text : String} (relative : (Path.mk text).isAbsolute = false) :
    Pattern.ofString? text = ((segmentTexts text.toList).mapM Segment.ofChars?).map fun segments =>
      ⟨false, collapse segments, text.toList.getLast? == some '/'⟩ := by
  have starts : (text.toList.head? == some '/') = false := relative
  rw [Pattern.ofString?]
  simp only [starts, Bool.false_eq_true, if_false]
  cases (segmentTexts text.toList).mapM Segment.ofChars? <;> rfl

/-- A pattern behind a root without wildcards: the names of the root, then the pattern. -/
theorem ofString?_absolute_append {root : List (List Char)} (slashless : Path.Slashless root)
    (plain : ∀ text ∈ root, Plain text) {entry : String}
    (relative : (Path.mk entry).isAbsolute = false) (present : entry ≠ "") :
    Pattern.ofString? (Path.absolute (root ++ Text.segments '/' entry.toList)).text =
      (Pattern.ofString? entry).map fun pattern =>
        ⟨true, root.map .name ++ pattern.segments, pattern.directoriesOnly⟩ := by
  have hentry : entry.toList ≠ [] := by simpa using present
  have hne := Text.segments_ne_nil '/' entry.toList
  have hall : root ++ Text.segments '/' entry.toList ≠ [] := by simp [hne]
  have hslash := slashless.append (Path.slashless_segments entry.toList)
  have body : Text.joined '/' (root ++ Text.segments '/' entry.toList) ≠ [] := by
    intro empty
    have written := Text.segments_joined hall hslash
    rw [empty] at written
    obtain rfl : root = [] := by
      cases root with
      | nil => rfl
      | cons first rest =>
        rw [Text.segments, List.cons_append] at written
        exact absurd (List.append_eq_nil_iff.1 (List.cons.inj written).2.symm).2 hne
    rw [List.nil_append, Text.joined_segments] at empty
    exact hentry empty
  have ends : ('/' :: Text.joined '/' (root ++ Text.segments '/' entry.toList)).getLast? =
      entry.toList.getLast? := by
    rw [← Path.toList_text_absolute, Path.toList_absolute_append _ hne, Text.joined_segments,
      List.getLast?_append, List.getLast?_cons, List.getLast?_eq_some_getLast hentry]
    rfl
  rw [ofString?_of_relative relative, segmentTexts_of_ne_nil hentry, Pattern.ofString?]
  simp only [Path.toList_text_absolute, List.head?_cons, beq_self_eq_true, if_true,
    List.drop_succ_cons, List.drop_zero, segmentTexts_of_ne_nil body,
    Text.segments_joined hall hslash, Path.withoutEnd_append hne, List.mapM_append,
    mapM_ofChars?_of_plain plain, ends]
  cases (Path.withoutEnd (Text.segments '/' entry.toList)).mapM Segment.ofChars? with
  | none => rfl
  | some segments =>
    exact congrArg some (congrArg (Pattern.mk true · _) (collapse_names_append root segments))

/-- The pattern of an absolute path without wildcards is made of names for its components. -/
theorem ofString?_absolute {root : List (List Char)} (slashless : Path.Slashless root)
    (plain : ∀ text ∈ root, Plain text) :
    ∃ names : List (List Char),
      names.filterMap Path.Component.ofSegment? = root.filterMap Path.Component.ofSegment? ∧
        Path.Slashless names ∧ ∃ directoriesOnly, Pattern.ofString? (Path.absolute root).text =
          some ⟨true, names.map .name, directoriesOnly⟩ := by
  have read (texts : List (List Char)) (h : ∀ text ∈ texts, Plain text)
      (split : segmentTexts (Text.joined '/' root) = texts) :
      Pattern.ofString? (Path.absolute root).text = some ⟨true, texts.map .name,
        ('/' :: Text.joined '/' root).getLast? == some '/'⟩ := by
    have whole := collapse_names_append texts []
    rw [List.append_nil, collapse, List.append_nil] at whole
    rw [Pattern.ofString?]
    simp only [Path.toList_text_absolute, List.head?_cons, beq_self_eq_true, if_true,
      List.drop_succ_cons, List.drop_zero, split, mapM_ofChars?_of_plain h]
    exact congrArg some (congrArg (Pattern.mk true · _) whole)
  by_cases empty : Text.joined '/' root = []
  · have bare : root = [] ∨ root = [[]] := by
      by_cases hr : root = []
      · exact .inl hr
      · have written := Text.segments_joined hr slashless
        rw [empty] at written
        exact .inr written.symm
    refine ⟨[[]], ?_, by simp [Path.Slashless], _, read [[]] (by simp [Plain]) (by rw [empty]; rfl)⟩
    obtain rfl | rfl := bare <;> rfl
  · have hr : root ≠ [] := by
      rintro rfl
      exact empty rfl
    refine ⟨Path.withoutEnd root, Path.filterMap_withoutEnd root, slashless.withoutEnd, _,
      read _ (fun text mem => plain text ?_) ?_⟩
    · exact Path.mem_of_mem_withoutEnd mem
    · rw [segmentTexts_of_ne_nil empty, Text.segments_joined hr slashless]

end ManifestLint.Glob
