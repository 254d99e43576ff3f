import ManifestLint.CommandLine.Basic

/-!
# Options of a scope

Options are read from left to right. A setting waits for its value, and takes effect only when
something other than its value follows, so an error found before that is the one that shows.
-/

namespace ManifestLint.CommandLine

inductive LongOption where
  | switch (which : Switch)
  | setting (which : Setting)

/-- The long options of a scope. Logging and help are everywhere; the version can be asked of the
program alone. -/
def Scope.longOption? (scope : Scope) (name : String) : Option LongOption :=
  match name with
  | "verbose" => some (.switch .verbose)
  | "help" => some (.switch .help)
  | "version" => if scope = .program then some (.switch .version) else none
  | "no-color" => if scope = .command .check then some (.switch .noColor) else none
  | "project-root" => if scope = .command .check then some (.setting .projectRoot) else none
  | "output" => if scope = .command .check then some (.setting .output) else none
  | _ => none

def Scope.shortOption? (scope : Scope) (letter : Char) : Option Switch :=
  match letter with
  | 'v' => some .verbose
  | 'h' => some .help
  | 'V' => if scope = .program then some .version else none
  | _ => none

/-- What the options and words of one scope have come to so far. A pending setting has been named,
perhaps with its value, and has not taken effect. -/
structure Draft where
  verbosity : Nat
  paths : List String
  projectRoot : Option String
  output : Option String
  noColor : Bool
  pending : Option (Setting × Option String)

namespace Draft

def empty : Draft := ⟨0, [], none, none, false, none⟩

/-- The value of a setting that has taken effect. -/
def value? (draft : Draft) : Setting → Option String
  | .projectRoot => draft.projectRoot
  | .output => draft.output

def assign (draft : Draft) (value : String) : Setting → Draft
  | .projectRoot => { draft with projectRoot := some value }
  | .output => { draft with output := some value }

/-- Lets the pending setting take effect: it must have a value, and no other before it. -/
def settle (draft : Draft) : Except Refusal Draft :=
  match draft.pending with
  | none => .ok draft
  | some (setting, none) => .error (.usage (.missingValue setting))
  | some (setting, some value) =>
    if (draft.value? setting).isSome then .error (.usage (.repeated setting.spelling))
    else .ok ({ draft with pending := none }.assign value setting)

/-- Turns a switch on, and first lets the pending setting take effect. -/
def turnOn (draft : Draft) (scope : Scope) (switch : Switch) (long : Bool) : Except Refusal Draft := do
  let draft ← draft.settle
  match switch with
  | .verbose => return { draft with verbosity := min 255 (draft.verbosity + 1) }
  | .noColor =>
    if draft.noColor then throw (.usage (.repeated switch.spelling))
    return { draft with noColor := true }
  | .help => throw (.help (.scope scope) long)
  | .version => throw .version

/-- Names a setting, whose value may have come with it. -/
def name (draft : Draft) (setting : Setting) : Option String → Except Refusal Draft
  | none => do return { ← draft.settle with pending := some (setting, none) }
  | some value => do
    let draft ← draft.settle
    { draft with pending := some (setting, some value) }.settle

/-- An option by its long name, with what stood behind an equals sign, if there was one. -/
def readLong (draft : Draft) (scope : Scope) (name : String) (value : Option String) :
    Except Refusal Draft :=
  match scope.longOption? name, value with
  | some (.switch switch), none => draft.turnOn scope switch true
  | some (.switch switch), some value => .error (.usage (.surplusValue value switch))
  | some (.setting setting), value => draft.name setting value
  | none, _ => .error (.usage (.unknownArgument ("--" ++ name)))

/-- Some short options behind one dash, which act in turn. -/
def readShorts (draft : Draft) (scope : Scope) : List Char → Except Refusal Draft
  | [] => .ok draft
  | letter :: rest =>
    match scope.shortOption? letter with
    | some switch => do (← draft.turnOn scope switch false).readShorts scope rest
    | none => .error (.usage (.unknownArgument (String.ofList ['-', letter])))

/-- A word that is no option: the value of the setting that waits for one, or else an argument in its
own right. Only the command `check` takes such arguments. -/
def readWord (draft : Draft) (scope : Scope) (word : String) : Except Refusal Draft :=
  match draft.pending with
  | some (setting, none) => .ok { draft with pending := some (setting, some word) }
  | _ =>
    match scope with
    | .command .check => do
      let draft ← draft.settle
      return { draft with paths := draft.paths ++ [word] }
    | .program => .error (.usage (.unknownCommand word))
    | _ => .error (.usage (.unknownArgument word))

/-- The text before the first equals sign, and the text behind it. -/
def splitValue (text : List Char) : String × Option String :=
  match text.dropWhile (· != '=') with
  | [] => (String.ofList text, none)
  | _ :: value => (String.ofList (text.takeWhile (· != '=')), some (String.ofList value))

/-- One argument before the end of the options. A dash by itself is a word. -/
def readArgument (draft : Draft) (scope : Scope) (argument : String) : Except Refusal Draft :=
  match argument.toList with
  | '-' :: '-' :: rest => draft.readLong scope (splitValue rest).1 (splitValue rest).2
  | '-' :: letter :: rest => draft.readShorts scope (letter :: rest)
  | _ => draft.readWord scope argument

/-- The words behind the end of the options, whatever they look like. -/
def readRest (draft : Draft) (scope : Scope) : List String → Except Refusal Draft
  | [] => draft.settle
  | word :: words =>
    match scope with
    | .command .check => do
      let draft ← draft.settle
      return { draft with paths := draft.paths ++ word :: words }
    | _ => .error (.usage (.unknownArgument word))

/-- All arguments of a command. Two dashes end the options. -/
def readAll (draft : Draft) (scope : Scope) : List String → Except Refusal Draft
  | [] => draft.settle
  | argument :: rest =>
    if argument = "--" then draft.readRest scope rest
    else do (← draft.readArgument scope argument).readAll scope rest

end Draft

end ManifestLint.CommandLine
