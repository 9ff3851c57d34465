import WikiPress.Files.Error
import WikiPress.Files.Path

/-!
# What the library asks of a file system

`System m` lists the elementary operations on files, each an action of `m` that
gives an answer or says why it failed.  Everything else that is done with files
is written in terms of them: reading texts, creating a directory together with
its parents, clearing a directory.  A pure file system is supplied by
`WikiPress.Files.Tree`.
-/

namespace WikiPress.Files

/-- What a path leads to. -/
inductive Kind where
  | file
  | directory
deriving DecidableEq, Repr

/-- The elementary operations on files. -/
structure System (m : Type → Type) where
  /-- What lies at a path. -/
  kind : Path → m (Except FileError Kind)
  /-- The bytes of a file. -/
  read : Path → m (Except FileError ByteArray)
  /-- Create or replace a file in an existing directory. -/
  write : Path → ByteArray → m (Except FileError Unit)
  /-- Create a directory in an existing directory. -/
  makeDirectory : Path → m (Except FileError Unit)
  /-- Remove a directory and all that lies below it. -/
  removeDirectory : Path → m (Except FileError Unit)
  /-- The path without `.` and `..` of what lies at a path. -/
  canonical : Path → m (Except FileError Path)
  /-- The files below a path, each by its parts as seen from there; a file lies
  below itself. -/
  filesBelow : Path → m (List (List String))
  /-- The directory from which relative paths start. -/
  workingDirectory : m Path

namespace System

variable {m : Type → Type} [Monad m]

/-- Whether a directory lies at a path. -/
def isDirectory (system : System m) (path : Path) : m Bool := do
  return (← system.kind path) matches .ok .directory

/-- Whether a file lies at a path. -/
def isFile (system : System m) (path : Path) : m Bool := do
  return (← system.kind path) matches .ok .file

/-- Whether anything lies at a path. -/
def present (system : System m) (path : Path) : m Bool := do
  return (← system.kind path) matches .ok _

/-- The text of a file. -/
def readText (system : System m) (path : Path) : m (Except FileError String) := do
  match ← system.read path with
  | .error error => return .error error
  | .ok bytes =>
    match String.fromUTF8? bytes with
    | some text => return .ok text
    | none => return .error .notText

/-- The directories above a path, nearest first. -/
def ancestors (path : Path) : List Path :=
  let named := Path.parts path
  ((List.range named.length).reverse.map named.take).map fun above =>
    if Path.isAbsolute path then Path.ofParts above else "/".intercalate above

/-- Make the first of the given directories.  Each lies in the next, which is made
first when it is missing. -/
def makeDirectoryIn (system : System m) : List Path → m (Except FileError Unit)
  | [] => return .error (.other "failed to create whole tree")
  | path :: above => do
    if path.isEmpty then return .ok ()
    match ← system.makeDirectory path with
    | .ok () => return .ok ()
    | .error .notFound =>
      match ← makeDirectoryIn system above with
      | .error error => return .error error
      | .ok () =>
        match ← system.makeDirectory path with
        | .ok () => return .ok ()
        | .error error => return if ← system.isDirectory path then .ok () else .error error
    | .error error => return if ← system.isDirectory path then .ok () else .error error

/-- Make a directory, and those above it that are missing. -/
def makeDirectories (system : System m) (path : Path) : m (Except FileError Unit) :=
  makeDirectoryIn system (path :: ancestors path)

end System

end WikiPress.Files
