import ManifestLint.Path.Basic

/-!
# Load errors

Why a file could not be read, and the error that a run ends with when it was a manifest.
-/

namespace ManifestLint

inductive FaultKind where
  | notFound
  | notADirectory
  | isADirectory
  | invalidName
  | invalidText
  | invalidPath
  deriving DecidableEq, Repr

structure Fault where
  kind : FaultKind
  message : String
  deriving DecidableEq, Repr

namespace Fault

def notFound : Fault := ⟨.notFound, "No such file or directory (os error 2)"⟩

/-- A path goes on behind a file. -/
def notADirectory : Fault := ⟨.notADirectory, "Not a directory (os error 20)"⟩

/-- A directory has no text. -/
def isADirectory : Fault := ⟨.isADirectory, "Is a directory (os error 21)"⟩

/-- A path, or a name in it, is longer than the system takes. -/
def nameTooLong : Fault := ⟨.invalidName, "File name too long (os error 36)"⟩

/-- The bytes of a file are no text. -/
def invalidText : Fault := ⟨.invalidText, "stream did not contain valid UTF-8"⟩

/-- A path holds the character that the system ends it with. -/
def nulInPath : Fault := ⟨.invalidPath, "file name contained an unexpected NUL byte"⟩

end Fault

/-- A manifest that could not be read, by its path as given. -/
structure LoadError where
  path : Path
  fault : Fault
  deriving DecidableEq, Repr

/-- The error in the words of the program. -/
def LoadError.message (error : LoadError) : String :=
  "Error reading config file " ++ error.path.text ++ ": " ++ error.fault.message

end ManifestLint
