import WikiPress.Files.System
import WikiPress.Glob.Braces
import WikiPress.Glob.Pattern

/-!
# Loading sources

A loader reads texts and binary files and lists the files that match a pattern.
All its paths are seen from the root of the source tree.  `Loader.ofDirectory`
loads from a directory of a file system, leaving excluded directories out of its
lists.
-/

namespace WikiPress

open Files Glob

/-- Why something could not be loaded. -/
inductive LoadError where
  | notFound (path : Path)
  | unreadable (path : Path) (cause : FileError)
  | badPattern (pattern : String) (cause : PatternError)
deriving DecidableEq, Repr

namespace LoadError

def message : LoadError → String
  | notFound path => s!"File not found: {path}"
  | unreadable path cause => s!"Failed to read {path}: {cause.message}"
  | badPattern pattern cause => s!"Invalid glob pattern '{pattern}': {cause.message}"

/-- The messages of the failures behind this one. -/
def causes : LoadError → List String
  | notFound _ => []
  | unreadable _ cause => [cause.message]
  | badPattern _ cause => [cause.message]

/-- The failure to load a file. -/
def ofFileError (path : Path) : FileError → LoadError
  | .notFound => notFound path
  | cause => unreadable path cause

end LoadError

/-- Read access to a source tree. -/
structure Loader (m : Type → Type) where
  /-- The text of a file. -/
  load : Path → m (Except LoadError String)
  /-- The bytes of a file. -/
  loadBinary : Path → m (Except LoadError ByteArray)
  /-- The files that match a pattern. -/
  glob : String → m (Except LoadError (List Path))

/-- Read every expansion of a pattern. -/
def Glob.parseAll (pattern : String) : Except LoadError (List Pattern) :=
  (expandBraces pattern).mapM fun expansion =>
    (Pattern.parse expansion).mapError (LoadError.badPattern pattern)

/-- A sorted list without repetitions. -/
def dedupSorted : List String → List String
  | [] => []
  | [path] => [path]
  | first :: second :: rest =>
    if first = second then dedupSorted (second :: rest)
    else first :: dedupSorted (second :: rest)

namespace Loader

variable {m : Type → Type} [Monad m]

/-- Whether a file is left out: the excluded path is the root, the file, or a
directory above it. -/
def isExcluded (root : Path) (excluded : List Path) (names : List String) : Bool :=
  excluded.any fun directory =>
    let place := Path.join root directory
    Path.isAbsolute place == Path.isAbsolute root
      && (Path.parts place).isPrefixOf (Path.parts root ++ names)
      && (Path.parts root).length ≤ (Path.parts place).length

/-- The matching files among those below a root, in increasing order. -/
def matching (patterns : List Pattern) (root : Path) (excluded : List Path)
    (files : List (List String)) : List Path :=
  let shown := (files.filter fun names => !isExcluded root excluded names).map ("/".intercalate ·)
  dedupSorted
    ((shown.filter fun path => patterns.any (·.accepts path)).mergeSort fun left right =>
      decide (left ≤ right))

/-- Load from a directory. -/
def ofDirectory (system : System m) (root : Path) (excluded : List Path) : Loader m where
  load path := do
    return (← system.readText (Path.join root path)).mapError (LoadError.ofFileError path)
  loadBinary path := do
    return (← system.read (Path.join root path)).mapError (LoadError.ofFileError path)
  glob pattern := do
    match parseAll pattern with
    | .error error => return .error error
    | .ok patterns =>
      return .ok (matching patterns root excluded (← system.filesBelow root))

end Loader

end WikiPress
