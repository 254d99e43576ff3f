import ManifestLint.Toml.Value

/-!
# Assembly of a TOML document

A document is a list of sections: assignments, under a header that names a table, or under none at
the top. Putting them together is where a key can turn out to be taken: a table can be opened by one
header only, a value once given stays, and dotted keys add to no table but their own.
-/

namespace ManifestLint.Toml

/-- A dotted key: the keys on the way, and the last one. -/
structure KeyPath where
  way : List String
  last : String
  deriving DecidableEq, Repr

structure Assignment where
  key : KeyPath
  value : Value

/-- What a header opens: a table, or one more item of an array of tables. -/
inductive Header where
  | table (key : KeyPath)
  | item (key : KeyPath)

structure Section where
  header : Header
  assignments : List Assignment

/-- A document, by its assignments above the first header and its sections. -/
structure Outline where
  top : List Assignment
  sections : List Section

/-- Whose keys are followed: those of a header, or those of an assignment. -/
inductive Follower where
  | header
  | assignment
  deriving DecidableEq

/-- How the tables come to be that are missing on the way. -/
def Follower.origin : Follower → Origin
  | .header => .implied
  | .assignment => .dotted

/-- Whether a table that is there may be entered on the way. A header enters all but inline tables;
a dotted key enters only tables that no header has opened. -/
def Follower.enters : Follower → Origin → Bool
  | .header, origin => origin != .inline
  | .assignment, origin => origin == .implied || origin == .dotted

namespace Table

def empty (origin : Origin) : Table := mk origin []

/-- Changes the table at the end of a way of keys, and makes the tables that are missing on it. An
array of tables is entered at its last item. -/
def update (who : Follower) (way : List String) (table : Table) (change : Table → Option Table) :
    Option Table :=
  match way with
  | [] => change table
  | key :: way =>
    match table.get? key with
    | none => (update who way (empty who.origin) change).map fun t => table.set key (.table t)
    | some (.table child) =>
      if who.enters child.origin then
        (update who way child change).map fun t => table.set key (.table t)
      else
        none
    | some (.tables items) =>
      match items.getLast? with
      | none => none
      | some item =>
        (update who way item change).map fun t => table.set key (.tables (items.dropLast ++ [t]))
    | some _ => none

/-- Gives a key a value that it does not have yet. -/
def insertNew (key : String) (value : Value) (table : Table) : Option Table :=
  if (table.get? key).isSome then none else some (table.set key value)

/-- Carries out an assignment. A dotted key must end in a table that dotted keys have made. -/
def assign (table : Table) (assignment : Assignment) : Option Table :=
  let key := assignment.key
  table.update .assignment key.way fun target =>
    if key.way ≠ [] ∧ target.origin ≠ .dotted then none
    else target.insertNew key.last assignment.value

def assignAll (table : Table) (assignments : List Assignment) : Option Table :=
  assignments.foldlM assign table

/-- Carries out a section below the table of the document. -/
def addSection (table : Table) (part : Section) : Option Table :=
  match part.header with
  | .table key =>
    table.update .header key.way fun parent =>
      match parent.get? key.last with
      | none =>
        ((empty .header).assignAll part.assignments).map fun t => parent.set key.last (.table t)
      | some (.table child) =>
        if child.origin = .implied then
          ((mk .header child.entries).assignAll part.assignments).map fun t =>
            parent.set key.last (.table t)
        else
          none
      | some _ => none
  | .item key =>
    table.update .header key.way fun parent => do
      let item ← (empty .header).assignAll part.assignments
      match parent.get? key.last with
      | none => some (parent.set key.last (.tables [item]))
      | some (.tables items) => some (parent.set key.last (.tables (items ++ [item])))
      | some _ => none

end Table

def Outline.table? (outline : Outline) : Option Table := do
  let top ← (Table.empty .header).assignAll outline.top
  outline.sections.foldlM Table.addSection top

def Table.inline? (assignments : List Assignment) : Option Table :=
  (Table.empty .inline).assignAll assignments

end ManifestLint.Toml
