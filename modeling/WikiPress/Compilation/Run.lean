import WikiPress.Compilation.Discovery
import WikiPress.Compilation.Rendering
import WikiPress.Saver
import WikiPress.Template

/-!
# Compiling a site

A run has two phases.  In the first one everything is loaded and rendered, which
gives an `Edition`: all files of the output with their contents.  Only if that
succeeds is the output directory cleared and the edition written, so a run that
fails before leaves the last output in place.
-/

namespace WikiPress

open Files

/-- Why a site could not be compiled. -/
inductive CompileError where
  | load (cause : LoadError)
  | save (cause : SaveError)
  | duplicate (clash : PageClash)
  /-- A page could not be rendered. -/
  | page (path : Path) (cause : PageError)
deriving DecidableEq, Repr

namespace CompileError

def message : CompileError → String
  | load cause => s!"Load error: {cause.message}"
  | save cause => s!"Save error: {cause.message}"
  | duplicate clash => clash.message
  | page path cause => s!"Failed to compile {path}: {cause.message}"

/-- The messages of the failures behind this one. -/
def causes : CompileError → List String
  | load cause => cause.message :: cause.causes
  | save cause => cause.message :: cause.causes
  | duplicate _ => []
  | page _ cause => cause.message :: cause.causes

end CompileError

/-- What a run tells when it has finished. -/
structure Report where
  pages : List Page
  assets : List Path
  brokenLinks : Nat
deriving DecidableEq, Repr, Inhabited

/-- All that a run puts into the output directory. -/
structure Edition where
  /-- The pages, with their texts and titles filled in, and what they are rendered to. -/
  rendered : List (Page × RenderedPage)
  /-- The files of the pages, by their paths. -/
  documents : List (Path × String)
  /-- The files that are copied, by their paths. -/
  assets : List (Path × ByteArray)
deriving Inhabited

namespace Edition

def report (edition : Edition) : Report :=
  { pages := edition.rendered.map Prod.fst
    assets := edition.assets.map Prod.fst
    brokenLinks := edition.rendered.foldl (fun count (_, page) => count + page.brokenLinks) 0 }

end Edition

/-! ## The first phase -/

namespace Compilation

variable {m : Type → Type} [Monad m]

/-- Find the pages of a site. -/
def discoverPages (loader : Loader m) (config : Config) : m (Except CompileError (List Page)) := do
  match ← loader.glob config.pages with
  | .error error => return .error (.load error)
  | .ok paths => return (Page.discover paths).mapError CompileError.duplicate

/-- Render pages one after the other, up to the first failure. -/
def renderPages (loader : Loader m) (includeLimit : Nat) :
    RenderContext → List Page → m (Except CompileError (List (Page × RenderedPage)))
  | _, [] => return .ok []
  | context, page :: pages => do
    match ← page.render loader includeLimit context with
    | (.error error, _) => return .error (.page page.sourcePath error)
    | (.ok rendered, filled, context) =>
      return (← renderPages loader includeLimit context pages).map ((filled, rendered) :: ·)

/-- Load files as they are, behind those that have been loaded.  A file that has
been loaded is not loaded again. -/
def loadFiles (loader : Loader m) (loaded : List (Path × ByteArray)) :
    List Path → m (Except LoadError (List (Path × ByteArray)))
  | [] => return .ok loaded
  | path :: paths => do
    if loaded.any (·.1 == path) then
      loadFiles loader loaded paths
    else
      match ← loader.loadBinary path with
      | .error error => return .error error
      | .ok content => loadFiles loader (loaded ++ [(path, content)]) paths

/-- Load the files that match patterns, behind those that have been loaded. -/
def loadMatches (loader : Loader m) (loaded : List (Path × ByteArray)) :
    List String → m (Except LoadError (List (Path × ByteArray)))
  | [] => return .ok loaded
  | pattern :: patterns => do
    match ← loader.glob pattern with
    | .error error => return .error error
    | .ok paths =>
      match ← loadFiles loader loaded paths with
      | .error error => return .error error
      | .ok loaded => loadMatches loader loaded patterns

/-- The output file of a page. -/
def document (template : String) (generatedAt : Moment) (page : Page) (rendered : RenderedPage) :
    Path × String :=
  (page.outputPath, Template.fill template page.title rendered.body generatedAt)

/-- Load and render all that belongs to a site. -/
def prepare (loader : Loader m) (config : Config) (generatedAt : Moment) :
    m (Except CompileError Edition) := do
  match ← loader.load config.template with
  | .error error => return .error (.load error)
  | .ok template =>
    match ← discoverPages loader config with
    | .error error => return .error error
    | .ok pages =>
      match ← renderPages loader config.includeLimit (RenderContext.ofPages pages) pages with
      | .error error => return .error error
      | .ok rendered =>
        match ← loadMatches loader [] config.assets with
        | .error error => return .error (.load error)
        | .ok assets =>
          let documents := rendered.map fun (page, rendered) =>
            document template generatedAt page rendered
          return .ok { rendered, documents, assets }

/-! ## The second phase -/

/-- Run actions one after the other, up to the first failure. -/
def runAll : List (m (Except SaveError Unit)) → m (Except SaveError Unit)
  | [] => return .ok ()
  | action :: actions => do
    match ← action with
    | .error error => return .error error
    | .ok () => runAll actions

/-- The actions that publish an edition: the output is cleared, the pages are
written, and then the assets. -/
def publication (saver : Saver m) (edition : Edition) : List (m (Except SaveError Unit)) :=
  saver.recreate
    :: (edition.documents.map fun (path, html) => saver.save path html)
    ++ edition.assets.map fun (path, content) => saver.saveBinary path content

/-- Write an edition in place of the last one. -/
def publish (saver : Saver m) (edition : Edition) : m (Except SaveError Unit) :=
  runAll (publication saver edition)

/-- Compile a site. -/
def run (loader : Loader m) (saver : Saver m) (config : Config) (generatedAt : Moment) :
    m (Except CompileError Report) := do
  match ← prepare loader config generatedAt with
  | .error error => return .error error
  | .ok edition =>
    match ← publish saver edition with
    | .error error => return .error (.save error)
    | .ok () => return .ok edition.report

end Compilation

end WikiPress
