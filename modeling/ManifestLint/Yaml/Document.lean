import ManifestLint.Yaml.Composition
import ManifestLint.Yaml.Lexer

/-!
# YAML documents

A stream with at most one document: directives, a mark, a node. Every alias must follow an anchor of
its name. Anchors are numbered by how many names there were before, so an anchor whose name is new
may take the number of one whose name was given twice; an alias stands for the last node with its
number.
-/

namespace ManifestLint.Yaml

open Reader

/-! ## Anchors and aliases -/

/-- The numbers of the anchors so far, by their names. -/
abbrev Numbers := List (List Char × Nat)

/-- Gives an anchor its number: how many names there are already. -/
def Numbers.declare (numbers : Numbers) (name : List Char) : Numbers :=
  if (numbers.lookup name).isSome then
    numbers.map fun (other, number) => (other, if other = name then numbers.length else number)
  else
    numbers ++ [(name, numbers.length)]

/-- The properties of a node with its anchor as a number. -/
def Properties.numbered (properties : Properties (List Char)) (numbers : Numbers) :
    Properties Nat × Numbers :=
  match properties.anchor with
  | none => (⟨none, properties.tag⟩, numbers)
  | some name => (⟨some numbers.length, properties.tag⟩, numbers.declare name)

namespace Node

mutual

/-- The node with numbers for names, unless an alias follows no anchor of its name. -/
def numbered? (numbers : Numbers) : NamedNode → Option (Node Nat × Numbers)
  | .alias name => (numbers.lookup name).map fun number => (.alias number, numbers)
  | .scalar properties style text =>
    let (properties, numbers) := properties.numbered numbers
    some (.scalar properties style text, numbers)
  | .sequence properties items => do
    let (properties, numbers) := properties.numbered numbers
    let (items, numbers) ← numberedItems? numbers items
    return (.sequence properties items, numbers)
  | .mapping properties entries => do
    let (properties, numbers) := properties.numbered numbers
    let (entries, numbers) ← numberedEntries? numbers entries
    return (.mapping properties entries, numbers)

def numberedItems? (numbers : Numbers) : List NamedNode → Option (List (Node Nat) × Numbers)
  | [] => some ([], numbers)
  | item :: rest => do
    let (item, numbers) ← numbered? numbers item
    let (rest, numbers) ← numberedItems? numbers rest
    return (item :: rest, numbers)

def numberedEntries? (numbers : Numbers) :
    List (NamedNode × NamedNode) → Option (List (Node Nat × Node Nat) × Numbers)
  | [] => some ([], numbers)
  | (key, value) :: rest => do
    let (key, numbers) ← numbered? numbers key
    let (value, numbers) ← numbered? numbers value
    let (rest, numbers) ← numberedEntries? numbers rest
    return ((key, value) :: rest, numbers)

end

end Node

/-- A document by its node, and the nodes that aliases in it stand for. -/
structure Document where
  root : Node Nat
  targets : List (Nat × Node Nat)

namespace Document

/-- The document of a node as it is written. -/
def ofNode? (node : NamedNode) : Option Document :=
  (node.numbered? []).map fun (root, _) => ⟨root, root.anchored⟩

/-- The node that a node stands for: itself, unless it is an alias. -/
def resolve (document : Document) (node : Node Nat) : Node Nat :=
  match node with
  | .alias number => ((document.targets.reverse.lookup number)).getD node
  | _ => node

/-! ## Directives and marks -/

/-- What the directives before a document say. -/
structure Directives where
  hasVersion : Bool
  handles : Handles

/-- Adds what a directive says. The version must be 1.1 or 1.2, and nothing may be said twice. -/
def Directives.add? (directives : Directives) : Token → Option Directives
  | .versionDirective major minor =>
    if directives.hasVersion || major ≠ 1 || (minor ≠ 1 && minor ≠ 2) then none
    else some { directives with hasVersion := true }
  | .tagDirective handle expansion =>
    if (directives.handles.lookup handle).isSome then none
    else some { directives with handles := directives.handles ++ [(handle, expansion)] }
  | _ => none

def isDirective : Token → Bool
  | .versionDirective _ _ | .tagDirective _ _ => true
  | _ => false

/-- The handles that are there unless a directive says otherwise. -/
def defaultHandles : Handles := [(['!'], ['!']), (['!', '!'], "tag:yaml.org,2002:".toList)]

/-- The node of a document that begins here; where nothing is written, it is empty. -/
def rootNode : Reader Token NamedNode := do
  let depth ← (fun input => some (input.length + 1, input) : Reader Token Nat)
  match ← peek? with
  | none => return .empty
  | some token => do
    if !(isDirective token || token == .documentStart) then
      return ← node defaultHandles depth true false
    let some directives :=
      (← run isDirective).foldlM Directives.add? ⟨false, []⟩ | failure
    expect [.documentStart]
    match ← peek? with
    | none => return .empty
    | some token => do
      if isDirective token || token == .documentStart || token == .documentEnd then return .empty
      node (directives.handles ++ defaultHandles) depth true false

/-- A stream of one document, or of none, which counts as an empty one. -/
def stream : Reader Token NamedNode := do
  let root ← rootNode
  let _ ← run (· == .documentEnd)
  return root

def parse? (text : String) : Option Document := do
  let source ← source? text.toList
  let tokens ← tokens? source
  let root ← readAll? stream tokens
  ofNode? root

end Document

end ManifestLint.Yaml
