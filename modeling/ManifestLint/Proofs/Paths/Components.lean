import ManifestLint.Path.Ancestors
import ManifestLint.Path.Label

/-!
# Components of paths

An absolute path is a slash and the segments behind it, and its components are the top and what those
segments stand for. So its components can be read off as it is built, segment by segment.

* `Path.absolute`, `exists_eq_absolute`: absolute paths by their segments;
* `components_absolute`, `components_join`: the components of such a path, and of one that goes on
  from it;
* `components_of_segments`, `segments_join`: the same for any path;
* `IsStep`, `components_wayText`: components that a segment can stand for, and the relative path that
  is written with their texts.
-/

namespace ManifestLint

/-! ## Segments -/

namespace Text

variable {separator : Char}

theorem joined_append {front back : List (List Char)} (hf : front ≠ []) (hb : back ≠ []) :
    joined separator (front ++ back) =
      joined separator front ++ separator :: joined separator back := by
  induction front with
  | nil => exact absurd rfl hf
  | cons segment rest ih =>
    by_cases hr : rest = []
    · subst hr
      exact joined_cons separator segment hb
    · rw [List.cons_append, joined_cons _ _ (by simp [hr]), ih hr, joined_cons _ _ hr]
      simp

theorem segments_append_separator (front back : List Char) :
    segments separator (front ++ separator :: back) =
      segments separator front ++ segments separator back := by
  induction front with
  | nil => simp [segments]
  | cons c rest ih =>
    rw [List.cons_append, segments, segments, ih]
    split
    · rfl
    · cases h : segments separator rest with
      | nil => exact absurd h (segments_ne_nil separator rest)
      | cons segment others => rfl

theorem segments_of_not_mem {text : List Char} (h : separator ∉ text) :
    segments separator text = [text] := by
  induction text with
  | nil => rfl
  | cons c rest ih =>
    obtain ⟨hc, hr⟩ := not_or.1 (mt List.mem_cons.2 h)
    rw [segments, if_neg (Ne.symm hc), ih hr]

/-- Segments without the separator are found again in the text that they are joined to. -/
theorem segments_joined {parts : List (List Char)} (hne : parts ≠ [])
    (h : ∀ part ∈ parts, separator ∉ part) : segments separator (joined separator parts) = parts := by
  induction parts with
  | nil => exact absurd rfl hne
  | cons part rest ih =>
    have hp := segments_of_not_mem (h part List.mem_cons_self)
    by_cases hr : rest = []
    · subst hr
      exact hp
    · rw [joined_cons _ _ hr, segments_append_separator, hp,
        ih hr fun other mem => h other (List.mem_cons_of_mem _ mem), List.singleton_append]

theorem not_mem_of_mem_segments {text segment : List Char} (h : segment ∈ segments separator text) :
    separator ∉ segment := by
  induction text generalizing segment with
  | nil => simp_all [segments]
  | cons c rest ih =>
    rw [segments] at h
    split at h
    · obtain rfl | h := List.mem_cons.1 h
      · simp
      · exact ih h
    · next hc =>
      split at h
      · next hs => exact absurd hs (segments_ne_nil separator rest)
      · next first others hs =>
        rw [hs] at ih
        obtain rfl | h := List.mem_cons.1 h
        · exact mt List.mem_cons.1 (not_or.2 ⟨Ne.symm hc, ih List.mem_cons_self⟩)
        · exact ih (List.mem_cons_of_mem _ h)

theorem mem_joined {parts : List (List Char)} {part : List Char} (hp : part ∈ parts) {c : Char}
    (hc : c ∈ part) : c ∈ joined separator parts := by
  induction parts with
  | nil => cases hp
  | cons first rest ih =>
    by_cases hr : rest = []
    · subst hr
      rwa [← List.mem_singleton.1 hp]
    · rw [joined_cons _ _ hr]
      obtain rfl | hp := List.mem_cons.1 hp
      · exact List.mem_append_left _ hc
      · exact List.mem_append_right _ (List.mem_cons_of_mem _ (ih hp))

theorem mem_joined_iff {parts : List (List Char)} {c : Char} (h : c ≠ separator) :
    c ∈ joined separator parts ↔ ∃ part ∈ parts, c ∈ part := by
  refine ⟨fun mem => ?_, fun ⟨part, hp, hc⟩ => mem_joined hp hc⟩
  induction parts with
  | nil => cases mem
  | cons first rest ih =>
    by_cases hr : rest = []
    · subst hr
      exact ⟨first, List.mem_cons_self, mem⟩
    · rw [joined_cons _ _ hr] at mem
      obtain mem | mem := List.mem_append.1 mem
      · exact ⟨first, List.mem_cons_self, mem⟩
      · obtain ⟨part, hp, hc⟩ := ih ((List.mem_cons.1 mem).resolve_left h)
        exact ⟨part, List.mem_cons_of_mem _ hp, hc⟩

theorem intercalate_eq_joined (parts : List (List Char)) :
    [separator].intercalate parts = joined separator parts := by
  induction parts with
  | nil => rfl
  | cons part rest ih =>
    cases rest with
    | nil => exact List.intercalate_singleton
    | cons second others =>
      rw [List.intercalate_cons_cons, ih, List.append_assoc]
      rfl

end Text

namespace Path

/-- No segment holds a slash. -/
def Slashless (segments : List (List Char)) : Prop := ∀ segment ∈ segments, '/' ∉ segment

theorem slashless_segments (text : List Char) : Slashless (Text.segments '/' text) :=
  fun _ mem => Text.not_mem_of_mem_segments mem

theorem Slashless.append {front back : List (List Char)} (hf : Slashless front)
    (hb : Slashless back) : Slashless (front ++ back) := by
  intro segment mem
  obtain mem | mem := List.mem_append.1 mem
  · exact hf segment mem
  · exact hb segment mem

/-! ## Absolute paths -/

/-- The absolute path with some segments behind its slash. -/
def absolute (segments : List (List Char)) : Path := ⟨String.ofList ('/' :: Text.joined '/' segments)⟩

@[simp] theorem toList_text_absolute (segments : List (List Char)) :
    (absolute segments).text.toList = '/' :: Text.joined '/' segments :=
  String.toList_ofList

@[simp] theorem isAbsolute_absolute (segments : List (List Char)) :
    (absolute segments).isAbsolute = true := by
  simp [isAbsolute]

theorem isAbsolute_iff {path : Path} :
    path.isAbsolute = true ↔ ∃ rest, path.text.toList = '/' :: rest := by
  rw [isAbsolute]
  cases path.text.toList <;> simp

theorem isAbsolute_of_slashless {name : String} (h : '/' ∉ name.toList) :
    (Path.mk name).isAbsolute = false := by
  cases absolute : (Path.mk name).isAbsolute with
  | false => rfl
  | true =>
    obtain ⟨rest, hr⟩ := isAbsolute_iff.1 absolute
    exact absurd (hr ▸ List.mem_cons_self) h

theorem exists_eq_absolute {path : Path} (h : path.isAbsolute = true) :
    ∃ segments, segments ≠ [] ∧ Slashless segments ∧ path = absolute segments := by
  obtain ⟨rest, hr⟩ := isAbsolute_iff.1 h
  refine ⟨Text.segments '/' rest, Text.segments_ne_nil '/' rest, slashless_segments rest, ?_⟩
  cases path
  rw [absolute, Text.joined_segments, ← hr, String.ofList_toList]

theorem segments_toList_absolute {segments : List (List Char)} (hne : segments ≠ [])
    (h : Slashless segments) :
    Text.segments '/' (absolute segments).text.toList = [] :: segments := by
  rw [toList_text_absolute, Text.segments, if_pos rfl, Text.segments_joined hne h]

theorem parts_absolute {segments : List (List Char)} (hne : segments ≠ []) (h : Slashless segments) :
    (absolute segments).parts = ⟨some .root, segments⟩ := by
  rw [parts, Parts.ofChars, segments_toList_absolute hne h]
  simp [hne]

theorem components_absolute {segments : List (List Char)} (h : Slashless segments) :
    (absolute segments).components = .root :: segments.filterMap Component.ofSegment? := by
  by_cases hne : segments = []
  · subst hne
    decide
  · rw [components, parts_absolute hne h]
    rfl

theorem parent?_absolute {segments : List (List Char)} (hne : segments ≠ [])
    (h : Slashless segments) : (absolute segments).parent? = (dropLast? segments).map absolute := by
  rw [parent?, parts_absolute hne h]
  cases dropLast? segments <;> rfl

/-! ## Parts of a text -/

theorem ofChars_of_segments {text first : List Char} {body : List (List Char)}
    (cut : Text.segments '/' text = first :: body) :
    Parts.ofChars text =
      if first = ['.'] then ⟨some .current, body⟩
      else if first = [] ∧ body ≠ [] then ⟨some .root, body⟩
      else ⟨none, first :: body⟩ := by
  rw [Parts.ofChars, cut]

/-- The components of a path are what its segments stand for, behind the top or a single dot at its
start. -/
theorem components_of_segments {path : Path} {first : List Char} {body : List (List Char)}
    (cut : Text.segments '/' path.text.toList = first :: body) :
    path.components =
      (if first = ['.'] then [.current] else if first = [] ∧ body ≠ [] then [.root] else []) ++
        (first :: body).filterMap Component.ofSegment? := by
  rw [components, parts, ofChars_of_segments cut]
  split
  · next dot =>
    subst dot
    rfl
  split
  · next rooted =>
    rw [rooted.1]
    rfl
  · rfl

/-- A text put together from the parts of another, without some segments at the end, is read as these
parts. -/
theorem components_toChars {text : List Char} {anchor : Option Component}
    {kept dropped : List (List Char)} (whole : Parts.ofChars text = ⟨anchor, kept ++ dropped⟩) :
    (Path.mk (String.ofList (Parts.toChars ⟨anchor, kept⟩))).components =
      anchor.toList ++ kept.filterMap Component.ofSegment? := by
  obtain ⟨first, body, cut⟩ := List.exists_cons_of_ne_nil (Text.segments_ne_nil '/' text)
  have slashless := slashless_segments text
  rw [cut] at slashless
  obtain ⟨bare, later⟩ := List.forall_mem_cons.1 slashless
  have front {kept dropped : List (List Char)} (split : body = kept ++ dropped) : Slashless kept :=
    fun segment mem => later segment (split ▸ List.mem_append_left dropped mem)
  rw [ofChars_of_segments cut] at whole
  split at whole
  · next dot =>
    obtain ⟨rfl, split⟩ := Parts.mk.inj whole
    have written : Parts.toChars ⟨some .current, kept⟩ = Text.joined '/' (['.'] :: kept) := by
      cases kept <;> rfl
    have read := Text.segments_joined (List.cons_ne_nil _ kept)
      (List.forall_mem_cons.2 ⟨dot ▸ bare, front split⟩)
    rw [written, components_of_segments (by rw [String.toList_ofList, read]), if_pos rfl]
    rfl
  split at whole
  · obtain ⟨rfl, split⟩ := Parts.mk.inj whole
    exact components_absolute (front split)
  · next dotless unrooted =>
    obtain ⟨rfl, same⟩ := Parts.mk.inj whole
    cases kept with
    | nil => rfl
    | cons head others =>
      obtain ⟨rfl, split⟩ := List.cons.inj same
      have read := Text.segments_joined (List.cons_ne_nil first others)
        (List.forall_mem_cons.2 ⟨bare, front split⟩)
      have inner : ¬ (first = [] ∧ others ≠ []) := by
        rintro ⟨empty, some⟩
        exact unrooted ⟨empty, by simp [split, some]⟩
      rw [Parts.toChars, components_of_segments (by rw [String.toList_ofList, read]), if_neg dotless,
        if_neg inner]
      rfl

/-! ## Going on from a path -/

/-- The segments without an empty one at the end. -/
def withoutEnd (segments : List (List Char)) : List (List Char) :=
  if segments.getLast? = some [] then segments.dropLast else segments

theorem withoutEnd_concat_nil (segments : List (List Char)) :
    withoutEnd (segments ++ [[]]) = segments := by
  simp [withoutEnd]

theorem withoutEnd_of_ne {segments : List (List Char)} (h : segments.getLast? ≠ some []) :
    withoutEnd segments = segments :=
  if_neg h

/-- There is an empty segment at the end, or there is nothing to leave out. -/
theorem eq_concat_nil_or (segments : List (List Char)) :
    segments = withoutEnd segments ++ [[]] ∨
      segments.getLast? ≠ some [] ∧ withoutEnd segments = segments := by
  by_cases h : segments.getLast? = some []
  · obtain ⟨front, rfl⟩ := List.getLast?_eq_some_iff.1 h
    exact .inl (by rw [withoutEnd_concat_nil])
  · exact .inr ⟨h, withoutEnd_of_ne h⟩

theorem mem_of_mem_withoutEnd {segments : List (List Char)} {segment : List Char}
    (h : segment ∈ withoutEnd segments) : segment ∈ segments := by
  rw [withoutEnd] at h
  split at h
  · exact List.dropLast_subset _ h
  · exact h

theorem Slashless.withoutEnd {segments : List (List Char)} (h : Slashless segments) :
    Slashless (withoutEnd segments) :=
  fun segment mem => h segment (mem_of_mem_withoutEnd mem)

theorem withoutEnd_append {front back : List (List Char)} (h : back ≠ []) :
    withoutEnd (front ++ back) = front ++ withoutEnd back := by
  obtain hb | ⟨hb, he⟩ := eq_concat_nil_or back
  · rw [hb, ← List.append_assoc, withoutEnd_concat_nil, withoutEnd_concat_nil]
  · rw [he, withoutEnd_of_ne]
    rwa [List.getLast?_append, List.getLast?_eq_some_getLast h, Option.some_or,
      ← List.getLast?_eq_some_getLast h]

theorem filterMap_withoutEnd (segments : List (List Char)) :
    (withoutEnd segments).filterMap Component.ofSegment? =
      segments.filterMap Component.ofSegment? := by
  obtain h | ⟨-, h⟩ := eq_concat_nil_or segments
  · have vacuous : [[]].filterMap Component.ofSegment? = [] := by decide
    have kept := congrArg (List.filterMap Component.ofSegment?) h
    rw [List.filterMap_append, vacuous, List.append_nil] at kept
    exact kept.symm
  · rw [h]

theorem ext_toList {a b : Path} (h : a.text.toList = b.text.toList) : a = b := by
  cases a
  cases b
  exact congrArg Path.mk (String.toList_inj.1 h)

theorem toList_join {base path : Path} (relative : path.isAbsolute = false) (last : Char)
    (ends : base.text.toList.getLast? = some last) :
    (base.join path).text.toList =
      base.text.toList ++ if last = '/' then path.text.toList else '/' :: path.text.toList := by
  rw [join, if_neg (by simp [relative]), ends]
  by_cases hl : last = '/' <;> simp [hl]

/-- The text of an absolute path is that of its segments behind an empty one. -/
theorem toList_absolute_append (front : List (List Char)) {back : List (List Char)} (h : back ≠ []) :
    (absolute (front ++ back)).text.toList =
      Text.joined '/' ([] :: front) ++ '/' :: Text.joined '/' back := by
  rw [← Text.joined_append (by simp) h, List.cons_append, Text.joined_cons _ _ (by simp [h]),
    toList_text_absolute, List.nil_append]

/-- What goes on from a path follows its text, with a slash between unless there is one. -/
theorem toList_join_cases (base : Path) {path : Path} (relative : path.isAbsolute = false) :
    base.text.toList = [] ∧ (base.join path).text.toList = path.text.toList ∨
      (∃ front, base.text.toList = front ++ ['/'] ∧
        (base.join path).text.toList = front ++ '/' :: path.text.toList) ∨
      ∃ last, base.text.toList.getLast? = some last ∧ last ≠ '/' ∧
        (base.join path).text.toList = base.text.toList ++ '/' :: path.text.toList := by
  cases ends : base.text.toList.getLast? with
  | none =>
    have nothing : base.text.toList = [] := List.getLast?_eq_none_iff.1 ends
    left
    rw [join, if_neg (by simp [relative]), ends, Option.all_none, if_pos rfl, String.toList_append,
      nothing]
    exact ⟨rfl, rfl⟩
  | some last =>
    right
    have whole := toList_join relative last ends
    by_cases slash : last = '/'
    · obtain ⟨front, written⟩ := List.getLast?_eq_some_iff.1 ends
      rw [slash] at written
      refine .inl ⟨front, written, ?_⟩
      rw [whole, if_pos slash, written, List.append_assoc, List.singleton_append]
    · exact .inr ⟨last, rfl, slash, by rw [whole, if_neg slash]⟩

theorem mem_toList_join_iff (base : Path) {path : Path} (relative : path.isAbsolute = false) {c : Char}
    (other : c ≠ '/') :
    c ∈ (base.join path).text.toList ↔ c ∈ base.text.toList ∨ c ∈ path.text.toList := by
  obtain ⟨split, written⟩ | ⟨front, split, written⟩ | ⟨last, -, -, written⟩ :=
    toList_join_cases base relative
  · simp [split, written]
  · simp [split, written, other]
  · simp [written, other]

theorem isAbsolute_join_of_relative (base : Path) {path : Path} (relative : path.isAbsolute = false) :
    (base.join path).isAbsolute = base.isAbsolute := by
  unfold isAbsolute at *
  obtain ⟨split, written⟩ | ⟨front, split, written⟩ | ⟨last, ends, -, written⟩ :=
    toList_join_cases base relative
  · rw [split, written, relative]
    rfl
  · rw [split, written]
    cases front <;> rfl
  · cases opens : base.text.toList with
    | nil => rw [opens] at ends; cases ends
    | cons c rest => rw [written, opens]; rfl

/-- Only a slash at the end of a text leaves an empty segment behind others. -/
theorem withoutEnd_segments {text : List Char} {last : Char} (ends : text.getLast? = some last)
    (other : last ≠ '/') : withoutEnd (Text.segments '/' text) = Text.segments '/' text := by
  obtain split | ⟨-, same⟩ := eq_concat_nil_or (Text.segments '/' text)
  · have written := Text.joined_segments '/' text
    rw [split] at written
    by_cases single : withoutEnd (Text.segments '/' text) = []
    · rw [single] at written
      rw [← written] at ends
      cases ends
    · rw [Text.joined_append single (List.cons_ne_nil _ _)] at written
      rw [← written, Text.joined, List.getLast?_concat, Option.some.injEq] at ends
      exact absurd ends.symm other
  · exact same

/-- What goes on from a path comes behind its segments, without an empty one at their end. -/
theorem segments_join (base : Path) {path : Path} (relative : path.isAbsolute = false) :
    Text.segments '/' (base.join path).text.toList =
      withoutEnd (Text.segments '/' base.text.toList) ++ Text.segments '/' path.text.toList := by
  obtain ⟨split, written⟩ | ⟨front, split, written⟩ | ⟨last, ends, other, written⟩ :=
    toList_join_cases base relative
  · rw [split, written]
    rfl
  · rw [split, written, Text.segments_append_separator, Text.segments_append_separator]
    exact congrArg (· ++ _) (withoutEnd_concat_nil _).symm
  · rw [written, Text.segments_append_separator, withoutEnd_segments ends other]

theorem join_absolute {segments : List (List Char)} (h : Slashless segments) {path : Path}
    (relative : path.isAbsolute = false) :
    (absolute segments).join path =
      absolute (withoutEnd segments ++ Text.segments '/' path.text.toList) := by
  have hne := Text.segments_ne_nil '/' path.text.toList
  have cut : withoutEnd (Text.segments '/' (absolute segments).text.toList) =
      [] :: withoutEnd segments := by
    by_cases hn : segments = []
    · subst hn
      rfl
    · rw [segments_toList_absolute hn h]
      exact @withoutEnd_append [[]] segments hn
  refine ext_toList ?_
  rw [← Text.joined_segments '/' ((absolute segments).join path).text.toList, segments_join _ relative,
    cut, toList_text_absolute, List.cons_append,
    Text.joined_cons _ [] (List.append_ne_nil_of_right_ne_nil _ hne), List.nil_append]

theorem components_join {base path : Path} (absolute : base.isAbsolute = true)
    (relative : path.isAbsolute = false) :
    (base.join path).components =
      base.components ++ (Text.segments '/' path.text.toList).filterMap Component.ofSegment? := by
  obtain ⟨segments, -, h, rfl⟩ := exists_eq_absolute absolute
  rw [join_absolute h relative, components_absolute (h.withoutEnd.append (slashless_segments _)),
    components_absolute h, List.filterMap_append, filterMap_withoutEnd, List.cons_append]

theorem components_entry {directory : Path} (absolute : directory.isAbsolute = true) {name : String}
    (slashless : '/' ∉ name.toList) :
    (directory.entry name).components =
      directory.components ++ [name.toList].filterMap Component.ofSegment? := by
  rw [entry, components_join absolute (isAbsolute_of_slashless slashless),
    Text.segments_of_not_mem slashless]

theorem isAbsolute_join {base path : Path} (h : base.isAbsolute = true) :
    (base.join path).isAbsolute = true := by
  cases relative : path.isAbsolute with
  | true => rw [join, if_pos relative, relative]
  | false =>
    obtain ⟨segments, -, hs, rfl⟩ := exists_eq_absolute h
    rw [join_absolute hs relative, isAbsolute_absolute]

theorem isAbsolute_entry {directory : Path} (h : directory.isAbsolute = true) (name : String) :
    (directory.entry name).isAbsolute = true :=
  isAbsolute_join h

/-- What is above an absolute path is absolute. -/
theorem isAbsolute_parent? {path parent : Path} (h : path.isAbsolute = true)
    (hp : path.parent? = some parent) : parent.isAbsolute = true := by
  obtain ⟨segments, hne, hs, rfl⟩ := exists_eq_absolute h
  rw [parent?_absolute hne hs] at hp
  obtain ⟨kept, -, rfl⟩ := Option.map_eq_some_iff.1 hp
  exact isAbsolute_absolute kept

theorem isAbsolute_of_mem_ancestors {path ancestor : Path} (h : path.isAbsolute = true)
    (mem : ancestor ∈ path.ancestors) : ancestor.isAbsolute = true := by
  fun_induction ancestors path with
  | case1 path ih =>
    obtain rfl | mem := List.mem_cons.1 mem
    · exact h
    · split at mem
      · cases mem
      · next parent hp => exact ih parent hp (isAbsolute_parent? h hp) mem

/-! ## Components that segments stand for -/

/-- A component other than the top and the place itself, under the text that it is written with. -/
structure Component.IsStep (component : Component) : Prop where
  slashless : '/' ∉ component.text.toList
  stands : Component.ofSegment? component.text.toList = some component

theorem Component.isStep_of_ofSegment? {segment : List Char} {component : Component}
    (slashless : '/' ∉ segment) (h : Component.ofSegment? segment = some component) :
    component.IsStep := by
  have written : component.text.toList = segment := by
    unfold Component.ofSegment? at h
    split at h
    · cases h
    · split at h
      · next hp => cases h; rw [hp]; rfl
      · cases h; exact String.toList_ofList
  exact ⟨written ▸ slashless, written ▸ h⟩

theorem isStep_of_mem_filterMap {segments : List (List Char)} (h : Slashless segments)
    {component : Component} (mem : component ∈ segments.filterMap Component.ofSegment?) :
    component.IsStep := by
  obtain ⟨segment, hs, stands⟩ := List.mem_filterMap.1 mem
  exact Component.isStep_of_ofSegment? (h segment hs) stands

/-- An absolute path is the top and then steps. -/
theorem components_of_isAbsolute {path : Path} (h : path.isAbsolute = true) :
    ∃ way, path.components = .root :: way ∧ ∀ component ∈ way, component.IsStep := by
  obtain ⟨segments, -, slashless, rfl⟩ := exists_eq_absolute h
  exact ⟨_, components_absolute slashless, fun _ mem => isStep_of_mem_filterMap slashless mem⟩

theorem filterMap_texts {way : List Component} (h : ∀ component ∈ way, component.IsStep) :
    (way.map (·.text.toList)).filterMap Component.ofSegment? = way := by
  induction way with
  | nil => rfl
  | cons component rest ih =>
    rw [List.map_cons, List.filterMap_cons_some (h component List.mem_cons_self).stands,
      ih fun other mem => h other (List.mem_cons_of_mem _ mem)]

theorem Component.IsStep.not_vacuous {component : Component} (h : component.IsStep) :
    isVacuous component.text.toList = false := by
  cases hv : isVacuous component.text.toList with
  | false => rfl
  | true =>
    have stands := h.stands
    rw [Component.ofSegment?, if_pos hv] at stands
    cases stands

theorem isStep_parent : Component.IsStep .parent := ⟨by decide, by decide⟩

theorem Component.IsStep.ne_current {component : Component} (h : component.IsStep) :
    component ≠ .current := by
  rintro rfl
  exact absurd h.stands (by decide)

/-- The text of a way of components: theirs, with slashes between. -/
def wayText (way : List Component) : List Char := Text.joined '/' (way.map (·.text.toList))

/-- A way is written so that its components are read back. -/
theorem components_wayText {way : List Component} (h : ∀ component ∈ way, component.IsStep) :
    (Path.mk (String.ofList (wayText way))).components = way := by
  cases way with
  | nil => decide
  | cons first rest =>
    have slashless : ∀ part ∈ (first :: rest).map (·.text.toList), '/' ∉ part := by
      intro part mem
      obtain ⟨component, hc, rfl⟩ := List.mem_map.1 mem
      exact (h component hc).slashless
    have counts := (h first List.mem_cons_self).not_vacuous
    simp only [isVacuous, Bool.or_eq_false_iff, beq_eq_false_iff_ne] at counts
    have unanchored : (Path.mk (String.ofList (wayText (first :: rest)))).parts =
        ⟨none, (first :: rest).map (·.text.toList)⟩ := by
      rw [parts, String.toList_ofList, Parts.ofChars, wayText,
        Text.segments_joined (by simp) slashless]
      simp [counts]
    rw [components, unanchored]
    exact filterMap_texts h

theorem head?_wayText {way : List Component} (h : ∀ component ∈ way, component.IsStep) :
    (wayText way).head? ≠ some '/' := by
  cases way with
  | nil => simp [wayText, Text.joined]
  | cons first rest =>
    have hf := h first List.mem_cons_self
    have counts := hf.not_vacuous
    have slashless := hf.slashless
    cases ht : first.text.toList with
    | nil => simp [ht, isVacuous] at counts
    | cons c text =>
      rw [ht] at slashless
      have written : (wayText (first :: rest)).head? = some c := by
        rw [wayText, List.map_cons, ht]
        cases rest <;> rfl
      rw [written]
      intro he
      cases he
      exact slashless List.mem_cons_self

end Path

end ManifestLint
