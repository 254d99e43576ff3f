import ManifestLint.Path.Order
import ManifestLint.Proofs.Paths.Labels

/-!
# Paths in another place

Two absolute paths that go on alike, one from a directory and one from the top. What a run does with
paths tells none of it: it goes on from them, compares them, orders them and writes labels for them, and
each comes out alike. `Relocated` relates two such paths, which never go up from where they start.

* `Relocated.join`: they stay so related as they go on;
* `Relocated.sameComponents_iff`, `atMost_eq`, `label_eq`: they compare and are labelled alike.
-/

namespace ManifestLint.Path

/-- Segments of a path that never goes up. -/
def Inward (segments : List (List Char)) : Prop :=
  ∀ segment ∈ segments, '/' ∉ segment ∧ segment ≠ ['.', '.']

theorem Inward.slashless {segments : List (List Char)} (h : Inward segments) : Slashless segments :=
  fun segment mem => (h segment mem).1

theorem Inward.append {front back : List (List Char)} (hf : Inward front) (hb : Inward back) :
    Inward (front ++ back) := by
  intro segment mem
  obtain mem | mem := List.mem_append.1 mem
  · exact hf segment mem
  · exact hb segment mem

theorem Inward.withoutEnd {segments : List (List Char)} (h : Inward segments) :
    Inward (withoutEnd segments) :=
  fun segment mem => h segment (mem_of_mem_withoutEnd mem)

theorem ofSegment?_ne_parent {segment : List Char} (h : segment ≠ ['.', '.']) :
    Component.ofSegment? segment ≠ some .parent := by
  rw [Component.ofSegment?, if_neg h]
  split <;> simp

theorem parent_not_mem_of_inward {segments : List (List Char)} (h : Inward segments) :
    Component.parent ∉ segments.filterMap Component.ofSegment? := by
  intro mem
  obtain ⟨segment, mem, stands⟩ := List.mem_filterMap.1 mem
  exact ofSegment?_ne_parent (h segment mem).2 stands

/-- Names that lead to a directory, none of them empty. -/
structure LeadDown (names : List (List Char)) : Prop where
  slashless : Slashless names
  full : ∀ name ∈ names, name ≠ []

theorem leadDown_nil : LeadDown [] := ⟨by simp [Slashless], by simp⟩

theorem LeadDown.withoutEnd_append {names : List (List Char)} (lead : LeadDown names)
    (segments : List (List Char)) : withoutEnd (names ++ segments) = names ++ withoutEnd segments := by
  by_cases hs : segments = []
  · subst hs
    rw [List.append_nil, withoutEnd_of_ne]
    · exact (List.append_nil names).symm
    · exact fun last => lead.full [] (List.mem_of_getLast? last) rfl
  · exact Path.withoutEnd_append hs

theorem LeadDown.join {names : List (List Char)} (lead : LeadDown names) {path : Path}
    (relative : path.isAbsolute = false) :
    (absolute names).join path = absolute (names ++ Text.segments '/' path.text.toList) := by
  have whole := lead.withoutEnd_append []
  rw [List.append_nil] at whole
  rw [join_absolute lead.slashless relative, whole]
  exact congrArg (fun front => absolute (front ++ _)) (List.append_nil names)

theorem LeadDown.entry {names : List (List Char)} (lead : LeadDown names) {name : String}
    (slashless : '/' ∉ name.toList) :
    (absolute names).entry name = absolute (names ++ [name.toList]) := by
  rw [Path.entry, lead.join (isAbsolute_of_slashless slashless), Text.segments_of_not_mem slashless]

/-- Two absolute paths that go on alike: the first from a directory with these names on the way to it,
and the second from the top. -/
def Relocated (names : List (List Char)) (path own : Path) : Prop :=
  ∃ segments, Inward segments ∧ path = absolute (names ++ segments) ∧ own = absolute segments

theorem relocated_absolute (names : List (List Char)) :
    Relocated names (absolute names) (absolute []) :=
  ⟨[], by simp [Inward], by rw [List.append_nil], rfl⟩

section

variable {names : List (List Char)} {path own other otherOwn : Path}

theorem Relocated.isAbsolute (same : Relocated names path own) :
    path.isAbsolute = true ∧ own.isAbsolute = true := by
  obtain ⟨segments, -, rfl, rfl⟩ := same
  exact ⟨isAbsolute_absolute _, isAbsolute_absolute _⟩

/-- Nearer to the top a path is no longer. -/
theorem Relocated.utf8ByteSize_le (same : Relocated names path own) :
    own.text.utf8ByteSize ≤ path.text.utf8ByteSize := by
  obtain ⟨segments, -, rfl, rfl⟩ := same
  by_cases hs : segments = []
  · subst hs
    have written : (absolute names).text =
        (absolute []).text ++ String.ofList (Text.joined '/' names) := by
      rw [← String.toList_inj, String.toList_append, toList_text_absolute, toList_text_absolute,
        String.toList_ofList]
      rfl
    rw [List.append_nil, written, String.utf8ByteSize_append]
    exact Nat.le_add_right _ _
  · have written : (absolute (names ++ segments)).text =
        String.ofList (Text.joined '/' ([] :: names)) ++ (absolute segments).text := by
      rw [← String.toList_inj, String.toList_append, toList_absolute_append names hs,
        toList_text_absolute, String.toList_ofList]
    rw [written, String.utf8ByteSize_append]
    exact Nat.le_add_left _ _

variable (lead : LeadDown names)
include lead

theorem Relocated.join (same : Relocated names path own) {further : Path}
    (relative : further.isAbsolute = false)
    (inward : Inward (Text.segments '/' further.text.toList)) :
    Relocated names (path.join further) (own.join further) := by
  obtain ⟨segments, stays, rfl, rfl⟩ := same
  refine ⟨withoutEnd segments ++ Text.segments '/' further.text.toList,
    stays.withoutEnd.append inward, ?_, ?_⟩
  · rw [join_absolute (lead.slashless.append stays.slashless) relative, lead.withoutEnd_append,
      List.append_assoc]
  · rw [join_absolute stays.slashless relative]

theorem Relocated.entry (same : Relocated names path own) {name : String}
    (slashless : '/' ∉ name.toList) (down : name ≠ "..") :
    Relocated names (path.entry name) (own.entry name) := by
  refine same.join lead (isAbsolute_of_slashless slashless) ?_
  rw [Text.segments_of_not_mem slashless]
  refine List.forall_mem_singleton.2 ⟨slashless, fun up => down ?_⟩
  exact String.toList_inj.1 up

/-- What the two paths go on by, component by component. -/
theorem Relocated.components (same : Relocated names path own) :
    ∃ way, path.components = (absolute names).components ++ way ∧
      own.components = (absolute []).components ++ way ∧ Component.parent ∉ way := by
  obtain ⟨segments, stays, rfl, rfl⟩ := same
  refine ⟨segments.filterMap Component.ofSegment?, ?_, ?_, parent_not_mem_of_inward stays⟩
  · rw [components_absolute (lead.slashless.append stays.slashless),
      components_absolute lead.slashless, List.filterMap_append, List.cons_append]
  · rw [components_absolute stays.slashless]
    rfl

theorem Relocated.sameComponents_iff (same : Relocated names path own)
    (otherSame : Relocated names other otherOwn) :
    path.SameComponents other ↔ own.SameComponents otherOwn := by
  obtain ⟨way, there, here, -⟩ := same.components lead
  obtain ⟨otherWay, otherThere, otherHere, -⟩ := otherSame.components lead
  rw [SameComponents, SameComponents, there, here, otherThere, otherHere,
    List.append_cancel_left_eq, List.append_cancel_left_eq]

omit lead in
theorem Component.compare_self (component : Component) : component.compare component = .eq := by
  cases component with
  | name text => simp [Component.compare, compareOfLessAndEq]
  | _ => rfl

omit lead in
/-- What two ways have in common at their start does not decide between them. -/
theorem compareComponents_append (front a b : List Component) :
    compareComponents (front ++ a) (front ++ b) = compareComponents a b := by
  induction front with
  | nil => rfl
  | cons component rest ih =>
    rw [List.cons_append, List.cons_append, compareComponents, Component.compare_self]
    exact ih

theorem Relocated.atMost_eq (same : Relocated names path own)
    (otherSame : Relocated names other otherOwn) : path.atMost other = own.atMost otherOwn := by
  obtain ⟨way, there, here, -⟩ := same.components lead
  obtain ⟨otherWay, otherThere, otherHere, -⟩ := otherSame.components lead
  rw [atMost, atMost, there, here, otherThere, otherHere, compareComponents_append,
    compareComponents_append]

omit lead in
/-- A path that goes on from a root is labelled by the way from there. -/
theorem label_of_components {root : Path} {way : List Component} (rooted : root.isAbsolute = true)
    (absolute : path.isAbsolute = true) (split : path.components = root.components ++ way)
    (inward : Component.parent ∉ way) : root.label path = String.ofList (wayText way) := by
  have down : below? root path = some way := by
    refine below?_eq_some_iff.2 ⟨⟨rooted, absolute⟩, split, fun climbs => inward ?_⟩
    exact List.mem_of_mem_head? climbs
  exact label_of_below? down

theorem Relocated.label_eq (same : Relocated names path own) :
    (absolute names).label path = (absolute []).label own := by
  obtain ⟨way, there, here, stays⟩ := same.components lead
  rw [label_of_components (isAbsolute_absolute names) same.isAbsolute.1 there stays,
    label_of_components (isAbsolute_absolute []) same.isAbsolute.2 here stays]

end

end ManifestLint.Path
