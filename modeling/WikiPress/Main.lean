import Std.Time.DateTime.Timestamp
import WikiPress.CommandLine.Outcome

/-!
# The program

The outermost layer: the file system of the machine, the clock, and the streams on
which an outcome is printed.  All that is decided is decided by
`WikiPress.CommandLine`.
-/

namespace WikiPress.Console

open Files CommandLine

/-! ## The file system -/

/-- The number that the machine gives to a failure. -/
def errorNumber : IO.Error → Nat
  | .alreadyExists _ number _ => number.toNat
  | .otherError number _ => number.toNat
  | .resourceBusy number _ => number.toNat
  | .resourceVanished number _ => number.toNat
  | .unsupportedOperation number _ => number.toNat
  | .hardwareFault number _ => number.toNat
  | .unsatisfiedConstraints number _ => number.toNat
  | .illegalOperation number _ => number.toNat
  | .protocolError number _ => number.toNat
  | .timeExpired number _ => number.toNat
  | .interrupted _ number _ => number.toNat
  | .noFileOrDirectory _ number _ => number.toNat
  | .invalidArgument _ number _ => number.toNat
  | .permissionDenied _ number _ => number.toNat
  | .resourceExhausted _ number _ => number.toNat
  | .inappropriateType _ number _ => number.toNat
  | .noSuchThing _ number _ => number.toNat
  | .unexpectedEof => 0
  | .userError _ => 0

/-- What a failure of the machine means. -/
def fileError (error : IO.Error) : FileError :=
  match errorNumber error with
  | 2 => .notFound
  | 13 => .permissionDenied
  | 17 => .alreadyExists
  | 20 => .notDirectory
  | 21 => .isDirectory
  | 36 => .nameTooLong
  | 39 => .notEmpty
  | _ => .other error.toString

/-- Do something that may fail. -/
def attempt {α : Type} (act : IO α) : IO (Except FileError α) :=
  try
    return .ok (← act)
  catch error =>
    return .error (fileError error)

/-- What lies at a path. -/
def kindAt (path : Path) : IO Kind := do
  let place ← IO.FS.realPath path
  return if (← place.metadata).type == .dir then .directory else .file

/-- The files below a path, with their places. -/
def filesWithPlaces (path : Path) : IO (List (List String × Path)) := do
  match ← attempt (kindAt path) with
  | .error _ => return []
  | .ok .file => return [([], path)]
  | .ok .directory =>
    let root ← IO.FS.realPath path
    let depth := (Path.parts root.toString).length
    let found ← root.walkDir
    let files ← found.toList.filterM fun place =>
      return (← attempt (kindAt place.toString)) matches .ok .file
    return files.map fun place => ((Path.parts place.toString).drop depth, place.toString)

/-- The file system of the machine. -/
def system : System IO where
  kind path := attempt (kindAt path)
  read path := attempt (IO.FS.readBinFile path)
  write path content := attempt (IO.FS.writeBinFile path content)
  makeDirectory path := attempt (IO.FS.createDir path)
  removeDirectory path := attempt (IO.FS.removeDirAll path)
  canonical path := attempt do return (← IO.FS.realPath path).toString
  filesBelow path := return (← filesWithPlaces path).map Prod.fst
  workingDirectory := return (← IO.currentDir).toString

/-- The moment at which this is run. -/
def now : IO Moment := do
  return ⟨(← Std.Time.Timestamp.now).toSecondsSinceUnixEpoch.val⟩

/-! ## Watching -/

/-- The files of a site outside its output directory, with their contents' hashes. -/
def snapshot (site : Site) : IO (List (Path × UInt64)) := do
  let files ← filesWithPlaces site.input
  let sources := files.filter fun (_, place) => !Path.startsWith place site.output
  sources.mapM fun (_, place) => do
    match ← attempt (IO.FS.readBinFile place) with
    | .ok content => return (place, hash content)
    | .error _ => return (place, 0)

/-- Compile a site; a failure is told, and then forgotten. -/
def rebuild (site : Site) : IO Unit := do
  match ← site.compile system (← now) with
  | .ok _ => return ()
  | .error error => IO.eprint (Outcome.failure error).error

/-- Compile a site, and again whenever its sources have changed. -/
def watch (site : Site) : IO Outcome := do
  rebuild site
  IO.println s!"Watching {Text.quoted site.input} for changes (Ctrl+C to stop)..."
  (← IO.getStdout).flush
  let mut seen ← snapshot site
  repeat
    IO.sleep 500
    let found ← snapshot site
    if found != seen then
      seen := found
      rebuild site
  return Outcome.success ""

end WikiPress.Console

/-- Do what the arguments ask for. -/
def main (arguments : List String) : IO UInt32 := do
  let outcome ← WikiPress.CommandLine.run WikiPress.Console.system (← WikiPress.Console.now)
    WikiPress.Console.watch arguments
  IO.print outcome.output
  IO.eprint outcome.error
  return UInt32.ofNat outcome.code
