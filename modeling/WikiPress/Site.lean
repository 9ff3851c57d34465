import WikiPress.Compilation.Run
import WikiPress.Text.Quoted

/-!
# Sites

A site is an input directory with an output directory, both with their places in
the file system resolved.  The output need not be present; it may lie inside the
input, whose compilation then passes over it, but it must not hold the input.
-/

namespace WikiPress

open Files

/-- Why something could not be done with a site. -/
inductive SiteError where
  | inputMissing (input : Path) (cause : FileError)
  | inputNotDirectory (input : Path)
  | outputInvalid (output : Path) (cause : FileError)
  /-- The output directory is the input directory or lies above it. -/
  | outputHoldsInput (output input : Path)
  | configuration (cause : ConfigError)
  | compilation (cause : CompileError)
deriving DecidableEq, Repr

namespace SiteError

def message : SiteError → String
  | inputMissing input _ => s!"Input directory {Text.quoted input} not found"
  | inputNotDirectory input => s!"Input {Text.quoted input} is not a directory"
  | outputInvalid output _ => s!"Invalid output path {Text.quoted output}"
  | outputHoldsInput output input =>
    s!"Output directory {Text.quoted output} would overwrite the input directory " ++
      Text.quoted input
  | configuration _ => "Failed to load configuration"
  | compilation _ => "Failed to compile wiki"

/-- The messages of the failures behind this one. -/
def causes : SiteError → List String
  | inputMissing _ cause => [cause.message]
  | inputNotDirectory _ => []
  | outputInvalid _ cause => [cause.message]
  | outputHoldsInput _ _ => []
  | configuration cause => cause.message :: cause.causes
  | compilation cause => cause.message :: cause.causes

end SiteError

/-- An input directory and an output directory. -/
structure Site where
  /-- The configuration file, if it is not the one in the input directory. -/
  configFile : Option Path := none
  input : Path
  output : Path
deriving DecidableEq, Repr, Inhabited

namespace Site

variable {m : Type → Type} [Monad m]

/-- The place of a path that leads nowhere, given its parts, the last first: seen
from the place of the directory that it lies in.  A path that ends in `..` stays
as it is. -/
def placeOfMissing (system : System m) : List String → m Path
  | [] => return Path.ofParts []
  | name :: above => do
    if name = ".." then
      return Path.ofParts (name :: above).reverse
    else
      match ← system.canonical (Path.ofParts above.reverse) with
      | .ok directory => return Path.join directory name
      | .error _ => return Path.join (← placeOfMissing system above) name

/-- The place of an output directory, which need not be present. -/
def placeOfOutput (system : System m) (output : Path) : m (Except SiteError Path) := do
  match ← system.canonical output with
  | .ok place => return .ok place
  | .error _ =>
    match Path.absolute? (← system.workingDirectory) output with
    | none => return .error (.outputInvalid output .emptyPath)
    | some absolute =>
      if (Path.fileName? absolute).isNone then return .ok absolute
      else return .ok (← placeOfMissing system (Path.parts absolute).reverse)

/-- The site with an input and an output directory. -/
def locate (system : System m) (configFile : Option Path) (input output : Path) :
    m (Except SiteError Site) := do
  match ← system.canonical input with
  | .error error => return .error (.inputMissing input error)
  | .ok inputPlace =>
    if !(← system.isDirectory inputPlace) then
      return .error (.inputNotDirectory inputPlace)
    else
      match ← placeOfOutput system output with
      | .error error => return .error error
      | .ok outputPlace =>
        if Path.startsWith inputPlace outputPlace then
          return .error (.outputHoldsInput outputPlace inputPlace)
        else
          return .ok { configFile, input := inputPlace, output := outputPlace }

/-- The output directory as seen from the input directory, if it lies inside. -/
def outputInInput? (site : Site) : Option Path :=
  Path.relativeTo? site.output site.input

/-- Read the configuration of a site. -/
def loadConfig (system : System m) (site : Site) : m (Except SiteError Config) := do
  let config ← match site.configFile with
    | some path => Config.ofFile system path
    | none => Config.discover system site.input
  return config.mapError SiteError.configuration

/-- Loads the sources of a site; the output directory is none of them. -/
def loader (system : System m) (site : Site) : Loader m :=
  Loader.ofDirectory system site.input site.outputInInput?.toList

/-- Saves the output of a site. -/
def saver (system : System m) (site : Site) : Saver m :=
  Saver.ofDirectory system site.output

/-- Compile a site. -/
def compile (system : System m) (generatedAt : Moment) (site : Site) :
    m (Except SiteError Report) := do
  match ← site.loadConfig system with
  | .error error => return .error error
  | .ok config =>
    let result ← Compilation.run (site.loader system) (site.saver system) config generatedAt
    return result.mapError SiteError.compilation

end Site

end WikiPress
