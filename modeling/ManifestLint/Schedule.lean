import ManifestLint.Log

/-!
# Schedules

Checks that go on at the same time. Each tells its events one after another and then comes to its
value, and a schedule says which of them gets on next. A check that fails ends the run: those that
have begun go on to their end, and no other begins. The error is the one that was come to first.
-/

namespace ManifestLint

/-- The checks that get on, turn by turn, by their positions. Behind the last turn those that are left
go on one after another. -/
structure Schedule where
  turns : List Nat
  deriving DecidableEq, Repr

namespace Schedule

/-- One check after another. -/
def oneByOne : Schedule := ⟨[]⟩

/-- A check on its way, with how many of its events it has told. -/
structure Attempt (ε α : Type) where
  check : Logged (Except ε α)
  told : Nat

namespace Attempt

variable {ε α : Type}

def logged (attempt : Attempt ε α) : List Log.Event := attempt.check.events.take attempt.told

def unlogged (attempt : Attempt ε α) : List Log.Event := attempt.check.events.drop attempt.told

/-- The error that an attempt comes to. -/
def failure? (attempt : Attempt ε α) : Option ε :=
  match attempt.check.value with
  | .error error => some error
  | .ok _ => none

/-- The attempts that go on to their end, when each goes on after the one before it. Where the run has
failed, that is those that have begun. -/
def ending (failed : Bool) : List (Attempt ε α) → List (Attempt ε α)
  | [] => []
  | attempt :: rest =>
    if failed && attempt.told == 0 then ending failed rest
    else attempt :: ending (failed || attempt.failure?.isSome) rest

end Attempt

/-- All checks of a run on their way, what they have told, and the error that was come to first. -/
structure Progress (ε α : Type) where
  attempts : List (Attempt ε α)
  events : List Log.Event
  failure : Option ε

namespace Progress

variable {ε α : Type}

def start (checks : List (Logged (Except ε α))) : Progress ε α := ⟨checks.map (⟨·, 0⟩), [], none⟩

/-- The check at a position gets on: it tells its next event, or comes to its value. -/
def turn (progress : Progress ε α) (position : Nat) : Progress ε α :=
  match progress.attempts[position]? with
  | none => progress
  | some attempt =>
    if progress.failure.isSome && attempt.told == 0 then progress
    else
      match attempt.check.events[attempt.told]? with
      | some event =>
        { progress with
          attempts := progress.attempts.set position { attempt with told := attempt.told + 1 }
          events := progress.events ++ [event] }
      | none => { progress with failure := progress.failure <|> attempt.failure? }

/-- What a run comes to, when those that are left go on one after another. -/
def outcome (progress : Progress ε α) : Logged (Except ε (List α)) where
  value :=
    match progress.failure with
    | some error => .error error
    | none => progress.attempts.mapM (·.check.value)
  events :=
    progress.events ++ (Attempt.ending progress.failure.isSome progress.attempts).flatMap Attempt.unlogged

end Progress

/-- All values in the order of the checks, or the error of one that fails. -/
def run {ε α : Type} (schedule : Schedule) (checks : List (Logged (Except ε α))) :
    Logged (Except ε (List α)) :=
  (schedule.turns.foldl Progress.turn (.start checks)).outcome

end Schedule

end ManifestLint
