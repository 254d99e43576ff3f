import ManifestLint.Path.Basic

/-!
# Order of paths

Paths are ordered component by component: the top comes first, then the same directory, then the one
above, then entries by the code points of their names. A path comes before those that go on from it.
-/

namespace ManifestLint.Path

/-- The place of the kind of a component among the kinds. -/
def Component.rank : Component → Nat
  | .root => 0
  | .current => 1
  | .parent => 2
  | .name _ => 3

def Component.compare : Component → Component → Ordering
  | .name a, .name b => compareOfLessAndEq a b
  | a, b => Ord.compare a.rank b.rank

def compareComponents : List Component → List Component → Ordering
  | [], [] => .eq
  | [], _ :: _ => .lt
  | _ :: _, [] => .gt
  | a :: as, b :: bs => (a.compare b).then (compareComponents as bs)

/-- Whether the first path comes no later than the second. -/
def atMost (a b : Path) : Bool := (compareComponents a.components b.components).isLE

/-- The paths in order; those with the same components keep theirs. -/
def sorted (paths : List Path) : List Path := paths.mergeSort atMost

end ManifestLint.Path
