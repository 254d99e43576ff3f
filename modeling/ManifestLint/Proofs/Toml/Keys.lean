import ManifestLint.Toml.Document

/-!
# Keys of a TOML document

No key comes twice in the table of a document: a table that is put together gets its entries one by one,
each by `Table.set`, which puts the value of a key that is there in its place. So what a key stands for
can be said by the entries, in whatever order they are.

* `KeysDistinct.of_update`: a step inside a table keeps its keys distinct, wherever the step is made;
* `keysDistinct_of_parse?`: the keys of a document are distinct;
* `get?_eq_some_iff`: what is looked up is what is among the entries.
-/

namespace ManifestLint.Toml

namespace Table

def KeysDistinct (table : Table) : Prop := (table.entries.map (·.1)).Nodup

variable {table result : Table}

theorem mem_keys_setEntry {key other : String} {value : Value} {entries : List (String × Value)} :
    other ∈ (setEntry key value entries).map (·.1) ↔ other = key ∨ other ∈ entries.map (·.1) := by
  induction entries with
  | nil => simp [setEntry]
  | cons entry rest ih =>
    obtain ⟨first, held⟩ := entry
    unfold setEntry
    by_cases same : first = key
    · simp [same]
    · rw [if_neg same, List.map_cons, List.mem_cons, ih, List.map_cons, List.mem_cons]
      exact or_left_comm

theorem nodup_keys_setEntry {entries : List (String × Value)} (distinct : (entries.map (·.1)).Nodup)
    (key : String) (value : Value) : ((setEntry key value entries).map (·.1)).Nodup := by
  induction entries with
  | nil => simp [setEntry]
  | cons entry rest ih =>
    obtain ⟨first, held⟩ := entry
    obtain ⟨absent, later⟩ := List.nodup_cons.1 distinct
    unfold setEntry
    by_cases same : first = key
    · rw [if_pos same]
      exact distinct
    · rw [if_neg same, List.map_cons, List.nodup_cons, mem_keys_setEntry]
      exact ⟨not_or.2 ⟨same, absent⟩, ih later⟩

theorem keysDistinct_empty (origin : Origin) : (empty origin).KeysDistinct := List.nodup_nil

theorem KeysDistinct.set (distinct : table.KeysDistinct) (key : String) (value : Value) :
    (table.set key value).KeysDistinct :=
  nodup_keys_setEntry distinct key value

/-- A change at the end of a way of keys sets one key of the table, or it is a change of the table. -/
theorem KeysDistinct.of_update {who : Follower} {way : List String} {change : Table → Option Table}
    (distinct : table.KeysDistinct)
    (kept : ∀ changed, change table = some changed → changed.KeysDistinct)
    (h : table.update who way change = some result) : result.KeysDistinct := by
  -- What happens further down shows only in the value that is set, so there is no induction on the way.
  cases way with
  | nil => exact kept result h
  | cons key way =>
    rw [update] at h
    split at h
    · obtain ⟨child, -, rfl⟩ := Option.map_eq_some_iff.1 h
      exact distinct.set _ _
    · split at h
      · obtain ⟨child, -, rfl⟩ := Option.map_eq_some_iff.1 h
        exact distinct.set _ _
      · cases h
    · split at h
      · cases h
      · obtain ⟨child, -, rfl⟩ := Option.map_eq_some_iff.1 h
        exact distinct.set _ _
    · cases h

theorem KeysDistinct.of_assign {assignment : Assignment} (distinct : table.KeysDistinct)
    (h : table.assign assignment = some result) : result.KeysDistinct := by
  refine distinct.of_update (fun changed step => ?_) h
  split at step
  · cases step
  · unfold insertNew at step
    split at step
    · cases step
    · cases step
      exact distinct.set _ _

theorem KeysDistinct.of_addSection {part : Section} (distinct : table.KeysDistinct)
    (h : table.addSection part = some result) : result.KeysDistinct := by
  unfold addSection at h
  split at h
  · refine distinct.of_update (fun changed step => ?_) h
    split at step
    · obtain ⟨child, -, rfl⟩ := Option.map_eq_some_iff.1 step
      exact distinct.set _ _
    · split at step
      · obtain ⟨child, -, rfl⟩ := Option.map_eq_some_iff.1 step
        exact distinct.set _ _
      · cases step
    · cases step
  · refine distinct.of_update (fun changed step => ?_) h
    obtain ⟨item, -, step⟩ := Option.bind_eq_some_iff.1 step
    split at step
    · cases step
      exact distinct.set _ _
    · cases step
      exact distinct.set _ _
    · cases step

/-- What each step keeps, a run of steps keeps. -/
theorem KeysDistinct.of_foldlM {α : Type} {step : Table → α → Option Table}
    (keeps : ∀ {table result : Table} {a : α}, table.KeysDistinct → step table a = some result →
      result.KeysDistinct)
    {items : List α} (distinct : table.KeysDistinct) (h : items.foldlM step table = some result) :
    result.KeysDistinct := by
  induction items generalizing table with
  | nil => cases h; exact distinct
  | cons a rest ih =>
    rw [List.foldlM_cons] at h
    obtain ⟨next, stepped, later⟩ := Option.bind_eq_some_iff.1 h
    exact ih (keeps distinct stepped) later

theorem KeysDistinct.of_table? {outline : Outline} (h : outline.table? = some table) :
    table.KeysDistinct := by
  obtain ⟨top, assigned, added⟩ := Option.bind_eq_some_iff.1 h
  have above : top.KeysDistinct := .of_foldlM .of_assign (keysDistinct_empty .header) assigned
  exact .of_foldlM .of_addSection above added

/-- The value that is found under a key is the one that is listed under it. -/
theorem get?_eq_some_iff (distinct : table.KeysDistinct) {key : String} {value : Value} :
    table.get? key = some value ↔ (key, value) ∈ table.entries := by
  rw [get?, List.lookup_eq_some_iff]
  constructor
  · rintro ⟨before, after, listed, -⟩
    rw [listed]
    exact List.mem_append_right before List.mem_cons_self
  · intro mem
    obtain ⟨before, after, listed⟩ := List.append_of_mem mem
    refine ⟨before, after, listed, fun entry earlier => ?_⟩
    rw [KeysDistinct, listed, List.map_append, List.nodup_append] at distinct
    have other := distinct.2.2 entry.1 (List.mem_map_of_mem earlier) key (by simp)
    simpa using Ne.symm other

end Table

theorem keysDistinct_of_parse? {text : String} {table : Table} (h : parse? text = some table) :
    table.KeysDistinct := by
  obtain ⟨outline, -, assembled⟩ := Option.bind_eq_some_iff.1 h
  exact .of_table? assembled

end ManifestLint.Toml
