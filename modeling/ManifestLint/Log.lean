import ManifestLint.Path.Basic

/-!
# The log

What a run tells about itself while it goes on, each message at a level. How much of it is shown
hangs on the verbosity alone.
-/

namespace ManifestLint.Log

inductive Level where
  | warn
  | info
  | debug
  deriving DecidableEq, Repr

/-- The word for a level. -/
def Level.name : Level → String
  | .warn => "WARN"
  | .info => "INFO"
  | .debug => "DEBUG"

/-- Whether a level is shown at a verbosity. -/
def Level.shownAt (verbosity : Nat) : Level → Bool
  | .warn => true
  | .info => 1 ≤ verbosity
  | .debug => 2 ≤ verbosity

inductive Event where
  | noWorkingDirectory
  | unreadableConfig (path : Path) (reason : String)
  | invalidConfig (path : Path)
  | badPattern (entry : String)
  | checking (root : Path) (manifests : Nat)
  | loaded (path : Path) (lines : Nat)
  | evaluated (rule : String) (findings : Nat)
  | checked (path : Path) (findings : Nat)
  deriving DecidableEq, Repr

def Event.level : Event → Level
  | .noWorkingDirectory | .unreadableConfig _ _ | .invalidConfig _ | .badPattern _ => .warn
  | .checking _ _ => .info
  | .loaded _ _ | .evaluated _ _ | .checked _ _ => .debug

/-- The message of an event, with its fields. -/
def Event.message : Event → String
  | .noWorkingDirectory => "cannot resolve working directory; config lookup stays local"
  | .unreadableConfig path reason =>
    "cannot read config; using defaults path=" ++ path.text ++ " error=" ++ reason
  | .invalidConfig path => "invalid config; using defaults path=" ++ path.text
  | .badPattern entry => "bad glob pattern; using it as a path pattern=" ++ entry
  | .checking root manifests =>
    "checking manifests root=" ++ root.text ++ " manifests=" ++ toString manifests
  | .loaded path lines => "loaded manifest path=" ++ path.text ++ " lines=" ++ toString lines
  | .evaluated rule findings =>
    "rule evaluated rule=\"" ++ rule ++ "\" findings=" ++ toString findings
  | .checked path findings =>
    "manifest checked path=" ++ path.text ++ " findings=" ++ toString findings

/-- The line of an event. -/
def Event.text (event : Event) : String := event.level.name ++ " " ++ event.message

/-- The events that are shown at a verbosity. -/
def shown (verbosity : Nat) (events : List Event) : List Event :=
  events.filter (·.level.shownAt verbosity)

end Log

/-- A value, and the events on the way to it. -/
@[ext] structure Logged (α : Type) where
  value : α
  events : List Log.Event

namespace Logged

variable {α β : Type}

instance : Monad Logged where
  pure value := ⟨value, []⟩
  bind first next := ⟨(next first.value).value, first.events ++ (next first.value).events⟩

/-- Logs an event. -/
def log (event : Log.Event) : Logged Unit := ⟨(), [event]⟩

@[simp] theorem value_pure (a : α) : (pure a : Logged α).value = a := rfl

@[simp] theorem events_pure (a : α) : (pure a : Logged α).events = [] := rfl

@[simp] theorem value_bind (first : Logged α) (next : α → Logged β) :
    (first >>= next).value = (next first.value).value := rfl

@[simp] theorem events_bind (first : Logged α) (next : α → Logged β) :
    (first >>= next).events = first.events ++ (next first.value).events := rfl

instance : LawfulMonad Logged := LawfulMonad.mk' Logged
  (fun _ => congrArg (Logged.mk _) (List.append_nil _))
  (fun _ _ => congrArg (Logged.mk _) (List.nil_append _))
  (fun _ _ _ => congrArg (Logged.mk _) (List.append_assoc _ _ _))

end Logged

end ManifestLint
