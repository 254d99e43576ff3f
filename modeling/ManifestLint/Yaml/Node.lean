import ManifestLint.Yaml.Token

/-!
# YAML nodes

The values of a document. An alias stands for the node with an anchor; what names the two is a type
`ι`: texts while a document is read, and numbers once it is known which belong together.
-/

namespace ManifestLint.Yaml

structure Properties (ι : Type) where
  anchor : Option ι
  tag : Option (List Char)

inductive Node (ι : Type) where
  | alias (target : ι)
  | scalar (properties : Properties ι) (style : Style) (text : List Char)
  | sequence (properties : Properties ι) (items : List (Node ι))
  | mapping (properties : Properties ι) (entries : List (Node ι × Node ι))

namespace Node

variable {ι : Type}

/-- What stands where nothing is written. -/
def empty : Node ι := .scalar ⟨none, none⟩ .plain []

mutual

/-- The nodes with an anchor, in the order in which they begin. -/
def anchored : Node ι → List (ι × Node ι)
  | .alias _ => []
  | .scalar properties style text =>
    properties.anchor.toList.map fun name => (name, .scalar properties style text)
  | .sequence properties items =>
    properties.anchor.toList.map (fun name => (name, .sequence properties items)) ++
      anchoredItems items
  | .mapping properties entries =>
    properties.anchor.toList.map (fun name => (name, .mapping properties entries)) ++
      anchoredEntries entries

def anchoredItems : List (Node ι) → List (ι × Node ι)
  | [] => []
  | item :: rest => anchored item ++ anchoredItems rest

def anchoredEntries : List (Node ι × Node ι) → List (ι × Node ι)
  | [] => []
  | (key, value) :: rest => anchored key ++ anchored value ++ anchoredEntries rest

end

end Node

end ManifestLint.Yaml
