import ManifestLint.Proofs.Paths.Relocation

/-!
# The order of paths

Paths are ordered as their components are, and those by kind first and by name then. So the order is
total, and it holds two paths for equal only if they have the same components. Main statement:
`pairwise_sorted`.
-/

namespace ManifestLint.Path

theorem Component.compare_eq_compareLex :
    Component.compare = compareLex (compareOn Component.rank) (compareOn Component.text) := by
  funext a b
  cases a <;> cases b <;> rfl

instance : Std.TransCmp Component.compare := by
  rw [Component.compare_eq_compareLex]
  infer_instance

instance : Std.LawfulEqCmp Component.compare where
  compare_self := Component.compare_self _
  eq_of_compare {a b} equal := by
    cases a <;> cases b
    case name.name a b => exact congrArg Component.name (Std.LawfulEqOrd.eq_of_compare equal)
    all_goals first | rfl | cases equal

theorem compareComponents_eq_compareLex : compareComponents = List.compareLex Component.compare := by
  funext a b
  fun_induction compareComponents a b with
  | case1 => rfl
  | case2 => rfl
  | case3 => rfl
  | case4 a as b bs ih => rw [ih, List.compareLex_cons_cons]

instance : Std.TransCmp compareComponents := by
  rw [compareComponents_eq_compareLex]
  infer_instance

instance : Std.LawfulEqCmp compareComponents := by
  rw [compareComponents_eq_compareLex]
  infer_instance

variable {a b c : Path}

theorem atMost_trans (first : a.atMost b = true) (second : b.atMost c = true) : a.atMost c = true :=
  Std.TransCmp.isLE_trans first second

theorem atMost_total (a b : Path) : a.atMost b = true ∨ b.atMost a = true := by
  have swapped : compareComponents b.components a.components =
      (compareComponents a.components b.components).swap := Std.OrientedCmp.eq_swap
  rw [atMost, atMost, swapped, Ordering.isLE_swap]
  cases compareComponents a.components b.components <;> decide

/-- Of two different paths in order, the first comes before the second. -/
theorem compareComponents_of_atMost (ordered : a.atMost b = true) (apart : ¬ a.SameComponents b) :
    compareComponents a.components b.components = .lt := by
  unfold atMost at ordered
  cases compared : compareComponents a.components b.components with
  | lt => rfl
  | eq => exact absurd (Std.LawfulEqCmp.eq_of_compare compared) apart
  | gt =>
    rw [compared] at ordered
    cases ordered

theorem pairwise_sorted (paths : List Path) : (sorted paths).Pairwise fun a b => a.atMost b = true :=
  have total (a b : Path) : (a.atMost b || b.atMost a) = true := by
    rw [Bool.or_eq_true]
    exact atMost_total a b
  @List.pairwise_mergeSort Path atMost (fun _ _ _ => atMost_trans) total paths

end ManifestLint.Path
