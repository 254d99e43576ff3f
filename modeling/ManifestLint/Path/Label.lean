import ManifestLint.Path.Basic

/-!
# Labels

How reports name a path: below the root of the project by the way from there, and elsewhere by its
own text. Since paths are Unicode texts, a label is the path as it is, with no character replaced.
-/

namespace ManifestLint.Path

/-- What follows `start` in `components`, if they begin with it. -/
def after? : List Component → List Component → Option (List Component)
  | [], components => some components
  | _ :: _, [] => none
  | a :: start, b :: components => if a = b then after? start components else none

/-- The components on the way down from one absolute path to another. A way that begins by going up
is none. -/
def below? (root path : Path) : Option (List Component) :=
  if root.isAbsolute && path.isAbsolute then
    match after? root.components path.components with
    | some (.parent :: _) => none
    | way => way
  else
    none

/-- The label of a path in a project. -/
def label (root path : Path) : String :=
  match below? root path with
  | some way => String.ofList (Text.joined '/' (way.map (·.text.toList)))
  | none => path.text

end ManifestLint.Path
