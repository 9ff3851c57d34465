import WikiPress.Files.System

/-!
# Saving output

A saver writes texts and binary files below an output root and can clear it.
`Saver.ofDirectory` saves to a directory of a file system.
-/

namespace WikiPress

open Files

/-- Why something could not be saved. -/
inductive SaveError where
  | unwritable (path : Path) (cause : FileError)
deriving DecidableEq, Repr

namespace SaveError

def message : SaveError → String
  | unwritable path cause => s!"Failed to write {path}: {cause.message}"

/-- The messages of the failures behind this one. -/
def causes : SaveError → List String
  | unwritable _ cause => [cause.message]

end SaveError

/-- Write access to an output tree. -/
structure Saver (m : Type → Type) where
  /-- Write a text, with the directories above it. -/
  save : Path → String → m (Except SaveError Unit)
  /-- Write bytes, with the directories above them. -/
  saveBinary : Path → ByteArray → m (Except SaveError Unit)
  /-- Remove the output root and make it again, empty. -/
  recreate : m (Except SaveError Unit)

namespace Saver

variable {m : Type → Type} [Monad m]

/-- Write a file below a root. -/
def writeBelow (system : System m) (root path : Path) (content : ByteArray) :
    m (Except FileError Unit) := do
  let target := Path.join root path
  let made ← match Path.parent? target with
    | some parent => system.makeDirectories parent
    | none => pure (.ok ())
  match made with
  | .error error => return .error error
  | .ok () => system.write target content

/-- Remove a directory, if anything lies there, and make it again. -/
def recreateDirectory (system : System m) (root : Path) : m (Except FileError Unit) := do
  let removed ← if ← system.present root then system.removeDirectory root else pure (.ok ())
  match removed with
  | .error error => return .error error
  | .ok () => system.makeDirectories root

/-- Save to a directory. -/
def ofDirectory (system : System m) (root : Path) : Saver m where
  save path content :=
    return (← writeBelow system root path content.toUTF8).mapError (SaveError.unwritable path)
  saveBinary path content :=
    return (← writeBelow system root path content).mapError (SaveError.unwritable path)
  recreate := return (← recreateDirectory system root).mapError (SaveError.unwritable root)

end Saver

end WikiPress
