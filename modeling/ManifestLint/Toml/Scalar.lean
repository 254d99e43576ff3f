import ManifestLint.Text.Digits
import ManifestLint.Text.Segments
import ManifestLint.Toml.Value

/-!
# Unquoted scalars of TOML

Booleans, integers, numbers with a fraction or an exponent, dates and times, each by the run of
characters that spells it.
-/

namespace ManifestLint.Toml

open Text

/-- Digits with underscores between them, each between two digits. -/
def ungrouped? (isDigitHere : Char → Bool) (text : List Char) : Option (List Char) :=
  let groups := segments '_' text
  if groups.all fun group => !group.isEmpty && group.all isDigitHere then some groups.flatten else none

/-- A number as a run of decimal digits, which does not begin with a zero unless it is one. -/
def wholeNumber? (text : List Char) : Option (List Char) :=
  (ungrouped? isDigit text).filter fun digits => digits.length = 1 || digits.head? != some '0'

/-- The sign before a number, if there is one, and what follows it. -/
def splitSign : List Char → Bool × List Char
  | '-' :: rest => (true, rest)
  | '+' :: rest => (false, rest)
  | rest => (false, rest)

def inBase? (base : Nat) (text : List Char) : Option Nat :=
  (ungrouped? (fun c => (digitValue? base c).isSome) text).bind (ofDigits? base)

/-- An integer: decimal with an optional sign, or hexadecimal, octal or binary without. It must fit
into 128 bits, with a sign or without. -/
def integer? (text : List Char) : Option Int :=
  let value : Option Int :=
    match text with
    | '0' :: 'x' :: digits => (inBase? 16 digits).map Int.ofNat
    | '0' :: 'o' :: digits => (inBase? 8 digits).map Int.ofNat
    | '0' :: 'b' :: digits => (inBase? 2 digits).map Int.ofNat
    | _ =>
      let (negative, digits) := splitSign text
      ((wholeNumber? digits).bind (ofDigits? 10)).map fun n => if negative then -(n : Int) else n
  value.filter fun n => -(Int.pow 2 127) ≤ n && n < Int.pow 2 128

/-- Whether `digits` times ten to the `exponent` is too large for a number of 64 bits: it is as near
to the next power of two as to the largest such number, or nearer. -/
def isTooLarge (digits : Nat) (exponent : Int) : Bool :=
  let limit := Nat.pow 2 1024 - Nat.pow 2 970
  let places := ((Nat.toDigits 10 digits).length : Int) + exponent
  if digits = 0 || places < 300 then false
  else if places > 320 then true
  else if exponent < 0 then limit * Nat.pow 10 exponent.natAbs ≤ digits
  else limit ≤ digits * Nat.pow 10 exponent.natAbs

/-- The exponent of a number, behind its letter. -/
def exponent? (text : List Char) : Option Int :=
  let (negative, digits) := splitSign text
  ((ungrouped? isDigit digits).bind (ofDigits? 10)).map fun n => if negative then -(n : Int) else n

/-- A number with a fraction or an exponent, behind its sign. -/
def fractional? (negative : Bool) (text : List Char) : Option Decimal := do
  let (mantissa, exponent) :=
    (text.takeWhile fun c => c != 'e' && c != 'E', text.dropWhile fun c => c != 'e' && c != 'E')
  let (whole, fraction) := (mantissa.takeWhile (· != '.'), mantissa.dropWhile (· != '.'))
  guard (!exponent.isEmpty || !fraction.isEmpty)
  let whole ← wholeNumber? whole
  let fraction ← if fraction.isEmpty then some [] else ungrouped? isDigit (fraction.drop 1)
  let exponent ← if exponent.isEmpty then some 0 else exponent? (exponent.drop 1)
  let digits ← ofDigits? 10 (whole ++ fraction)
  let exponent := exponent - fraction.length
  guard !isTooLarge digits exponent
  return .finite negative digits exponent

def decimal? (text : List Char) : Option Decimal :=
  let (negative, unsigned) := splitSign text
  if unsigned = "inf".toList then some (.infinity negative)
  else if unsigned = "nan".toList then some .notANumber
  else fractional? negative unsigned

/-- A number of exactly that many digits, up to a greatest. -/
def field? (count greatest : Nat) (text : List Char) : Option Nat :=
  if text.length = count then (ofDigits? 10 text).filter (· ≤ greatest) else none

def isLeapYear (year : Nat) : Bool := year % 4 == 0 && (year % 100 != 0 || year % 400 == 0)

def daysIn (year month : Nat) : Nat :=
  if month = 2 then (if isLeapYear year then 29 else 28)
  else if month ∈ [4, 6, 9, 11] then 30
  else 31

def date? (text : List Char) : Option Date :=
  match segments '-' text with
  | [year, month, day] => do
    let year ← field? 4 9999 year
    let month ← field? 2 12 month
    let day ← field? 2 31 day
    guard (1 ≤ month && 1 ≤ day && day ≤ daysIn year month)
    return ⟨year, month, day⟩
  | _ => none

/-- A time of day. The second may be left out, and its fraction with it; there may be a leap second. -/
def timeOfDay? (text : List Char) : Option TimeOfDay :=
  match segments ':' text with
  | [hour, minute] => do return ⟨← field? 2 23 hour, ← field? 2 59 minute, 0, []⟩
  | [hour, minute, second] => do
    let hour ← field? 2 23 hour
    let minute ← field? 2 59 minute
    match segments '.' second with
    | [second] => return ⟨hour, minute, ← field? 2 60 second, []⟩
    | [second, fraction] =>
      guard (!fraction.isEmpty && fraction.all isDigit)
      return ⟨hour, minute, ← field? 2 60 second, fraction⟩
    | _ => none
  | _ => none

def opensOffset (c : Char) : Bool := c == 'Z' || c == 'z' || c == '+' || c == '-'

/-- An offset from universal time, in minutes. -/
def offset? (text : List Char) : Option Int :=
  match text with
  | ['Z'] | ['z'] => some 0
  | sign :: rest =>
    match segments ':' rest with
    | [hours, minutes] => do
      let hours ← field? 2 23 hours
      let minutes ← field? 2 59 minutes
      guard (sign = '+' || sign = '-')
      let offset : Int := hours * 60 + minutes
      return if sign = '-' then -offset else offset
    | _ => none
  | [] => none

/-- A date, a time of day, or both with a letter T or a space between them and perhaps an offset. -/
def moment? (text : List Char) : Option Moment :=
  if text[2]? = some ':' then (timeOfDay? text).map Moment.time
  else do
    let date ← date? (text.take 10)
    match text.drop 10 with
    | [] => return .date date
    | mark :: rest =>
      guard (mark = 'T' || mark = 't' || mark = ' ')
      let time ← timeOfDay? (rest.takeWhile (!opensOffset ·))
      match rest.dropWhile (!opensOffset ·) with
      | [] => return .dateTime date time
      | offset => return .offsetDateTime date time (← offset? offset)

def isScalarChar (c : Char) : Bool :=
  isDigit c || ('a' ≤ c && c ≤ 'z') || ('A' ≤ c && c ≤ 'Z') || c == '+' || c == '-' || c == '_' ||
  c == '.' || c == ':'

def scalar? (text : List Char) : Option Value :=
  if text = "true".toList then some (.boolean true)
  else if text = "false".toList then some (.boolean false)
  else
    (integer? text).map Value.integer <|> (decimal? text).map Value.decimal <|>
      (moment? text).map Value.moment

end ManifestLint.Toml
