import ManifestLint.Reader
import ManifestLint.Yaml.Node

/-!
# Nodes from tokens

The grammar of nodes. Inside blocks a collection is framed by the tokens that open and end its block,
save that the items of a sequence may stand at the indent of the mapping around it; inside brackets
and braces entries stand between commas. Where a key, value or item is missing, it is empty.
-/

namespace ManifestLint.Yaml

open Reader

/-- The tags that handles stand for. -/
abbrev Handles := List (List Char × List Char)

/-- The tag of a handle and what follows it. A tag without a handle stands for itself. -/
def Handles.tag? (handles : Handles) (handle suffix : List Char) : Option (List Char) :=
  if handle.isEmpty then some suffix else (handles.lookup handle).map (· ++ suffix)

/-- A node as it is written, with anchors and aliases by their names. -/
abbrev NamedNode := Node (List Char)

def anchor? : Reader Token (Option (List Char)) := do
  match ← peek? with
  | some (.anchor name) => do
    let _ ← next
    return some name
  | _ => return none

def tag? (handles : Handles) : Reader Token (Option (List Char)) := do
  match ← peek? with
  | some (.tag handle suffix) => do
    let _ ← next
    let some tag := handles.tag? handle suffix | failure
    return some tag
  | _ => return none

/-- An anchor and a tag, in either order, each of which may be missing. -/
def properties (handles : Handles) : Reader Token (Properties (List Char)) := do
  let before ← anchor?
  let tag ← tag? handles
  let after ← if before.isNone && tag.isSome then anchor? else pure none
  return ⟨before <|> after, tag⟩

/-- How to read a node: whether it may be a block, and whether its items may stand unindented. -/
abbrev NodeReader := Bool → Bool → Reader Token NamedNode

/-- A node, or the empty one if one of these tokens comes next. -/
def nodeUnless (stops : List Token) (node : Reader Token NamedNode) : Reader Token NamedNode := do
  match ← peek? with
  | some token => if token ∈ stops then return .empty else node
  | none => node

def blockItems (node : NodeReader) : Reader Token (List NamedNode) :=
  iterate (fun items : List NamedNode => do
    if ← accept [.blockEntry] then
      return .inl ((← nodeUnless [.blockEntry, .blockEnd] (node true false)) :: items)
    expect [.blockEnd]
    return .inr items.reverse) []

/-- The items of a sequence at the indent of the mapping around it. -/
def unindentedItems (node : NodeReader) : Reader Token (List NamedNode) :=
  iterate (fun items : List NamedNode => do
    if ← accept [.blockEntry] then
      let item ← nodeUnless [.blockEntry, .key, .value, .blockEnd] (node true false)
      return .inl (item :: items)
    return .inr items.reverse) []

def entryValue (stops : List Token) (node : Reader Token NamedNode) : Reader Token NamedNode := do
  if ← accept [.value] then nodeUnless stops node else return .empty

def blockEntries (node : NodeReader) : Reader Token (List (NamedNode × NamedNode)) :=
  iterate (fun entries : List (NamedNode × NamedNode) => do
    if ← accept [.key] then
      let key ← nodeUnless [.key, .value, .blockEnd] (node true true)
      let value ← entryValue [.key, .value, .blockEnd] (node true true)
      return .inl ((key, value) :: entries)
    expect [.blockEnd]
    return .inr entries.reverse) []

/-- Passes over the comma before an entry that is not the first, and says whether the collection ends
here instead. -/
def flowEnds (isFirst : Bool) (closing : Token) : Reader Token Bool := do
  if ← accept [closing] then return true
  if isFirst then return false
  expect [.flowEntry]
  accept [closing]

/-- A mapping of one entry inside brackets, behind the mark of its key. Where the key is empty, the
token behind it is lost. -/
def flowPair (node : NodeReader) : Reader Token (NamedNode × NamedNode) := do
  let stops := [.value, .flowEntry, .flowSequenceEnd]
  let key ← match ← peek? with
    | some token =>
      if token ∈ stops then (do
        let _ ← next
        return .empty)
      else node false false
    | none => failure
  return (key, ← entryValue [.flowEntry, .flowSequenceEnd] (node false false))

/-- The items of a sequence between brackets, behind the opening one. -/
def flowItems (node : NodeReader) : Reader Token (List NamedNode) :=
  iterate (fun items : List NamedNode => do
    if ← flowEnds items.isEmpty .flowSequenceEnd then return .inr items.reverse
    if ← accept [.key] then
      let pair ← flowPair node
      return .inl (.mapping ⟨none, none⟩ [pair] :: items)
    return .inl ((← node false false) :: items)) []

/-- The entries of a mapping between braces, behind the opening one. -/
def flowEntries (node : NodeReader) : Reader Token (List (NamedNode × NamedNode)) :=
  iterate (fun entries : List (NamedNode × NamedNode) => do
    if ← flowEnds entries.isEmpty .flowMappingEnd then return .inr entries.reverse
    if ← accept [.key] then
      let key ← nodeUnless [.value, .flowEntry, .flowMappingEnd] (node false false)
      let value ← entryValue [.flowEntry, .flowMappingEnd] (node false false)
      return .inl ((key, value) :: entries)
    return .inl ((← node false false, .empty) :: entries)) []

/-- The content of a node behind its properties. -/
def content (node : NodeReader) (properties : Properties (List Char)) (block unindented : Bool) :
    Reader Token NamedNode := do
  match ← peek? with
  | some (.scalar style text) => do
    let _ ← next
    return .scalar { properties with tag := properties.tag.filter (· != ['!']) } style text
  | some .flowSequenceStart => do
    let _ ← next
    return .sequence properties (← flowItems node)
  | some .flowMappingStart => do
    let _ ← next
    return .mapping properties (← flowEntries node)
  | token => do
    if unindented && token == some .blockEntry then
      return .sequence properties (← unindentedItems node)
    if block && token == some .blockSequenceStart then
      let _ ← next
      return .sequence properties (← blockItems node)
    if block && token == some .blockMappingStart then
      let _ ← next
      return .mapping properties (← blockEntries node)
    guard (properties.anchor.isSome || properties.tag.isSome)
    return .scalar properties .plain []

/-- A node in which nodes are nested no deeper than `depth`. -/
def node (handles : Handles) : Nat → NodeReader
  | 0 => fun _ _ => failure
  | depth + 1 => fun block unindented => do
    match ← peek? with
    | some (.alias name) => do
      let _ ← next
      return .alias name
    | _ => content (node handles depth) (← properties handles) block unindented

end ManifestLint.Yaml
