/-!
# TOML values

The values of a TOML document. A table remembers how it came to be, since that decides what may
still be added to it.
-/

namespace ManifestLint.Toml

/-- A number with a fraction or an exponent, as written: `digits` times ten to the `exponent`. -/
inductive Decimal where
  | finite (negative : Bool) (digits : Nat) (exponent : Int)
  | infinity (negative : Bool)
  | notANumber
  deriving DecidableEq, Repr

structure Date where
  year : Nat
  month : Nat
  day : Nat
  deriving DecidableEq, Repr

/-- A time of day; the fraction of the second is kept as its digits. -/
structure TimeOfDay where
  hour : Nat
  minute : Nat
  second : Nat
  fraction : List Char
  deriving DecidableEq, Repr

/-- A date, a time of day or both, with the offset from universal time in minutes if it is given. -/
inductive Moment where
  | date (date : Date)
  | time (time : TimeOfDay)
  | dateTime (date : Date) (time : TimeOfDay)
  | offsetDateTime (date : Date) (time : TimeOfDay) (minutes : Int)
  deriving DecidableEq, Repr

inductive Origin where
  /-- By a header of its own, or as the document itself. -/
  | header
  /-- By a header that names a table inside it. -/
  | implied
  /-- By a dotted key. -/
  | dotted
  /-- By an inline table, to which nothing can be added. -/
  | inline
  deriving DecidableEq, Repr

mutual

inductive Value where
  | string (text : String)
  | integer (value : Int)
  | decimal (value : Decimal)
  | boolean (value : Bool)
  | moment (value : Moment)
  | array (items : List Value)
  | table (table : Table)
  | tables (tables : List Table)

/-- A table by its entries, in the order in which they were first named. -/
inductive Table where
  | mk (origin : Origin) (entries : List (String × Value))

end

namespace Table

def origin : Table → Origin
  | mk origin _ => origin

def entries : Table → List (String × Value)
  | mk _ entries => entries

def get? (table : Table) (key : String) : Option Value := table.entries.lookup key

/-- The entries with a key set to a value, in its place if it has one and at the end if not. -/
def setEntry (key : String) (value : Value) : List (String × Value) → List (String × Value)
  | [] => [(key, value)]
  | (k, v) :: rest => if k = key then (k, value) :: rest else (k, v) :: setEntry key value rest

def set (table : Table) (key : String) (value : Value) : Table :=
  mk table.origin (setEntry key value table.entries)

end Table

end ManifestLint.Toml
