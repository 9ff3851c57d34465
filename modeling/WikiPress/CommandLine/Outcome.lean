import WikiPress.CommandLine.Help
import WikiPress.Site
import WikiPress.Text.Json

/-!
# Outcomes of the command line

A run of the program ends with an exit code, and with what it has printed on
standard output and on standard error.  A failure is reported together with the
failures behind it, numbered if there are several.
-/

namespace WikiPress.CommandLine

open Files Text

/-- How a run of the program ends. -/
structure Outcome where
  code : Nat
  /-- What is printed on standard output. -/
  output : String := ""
  /-- What is printed on standard error. -/
  error : String := ""
deriving DecidableEq, Repr

namespace Outcome

/-- A run that ends well. -/
def success (output : String) : Outcome :=
  { code := 0, output }

/-- A run whose arguments were not in order. -/
def refusal : Outcome :=
  { code := 2, error := refusalText }

/-- The lines of a text, with `first` in front of the first one and `further` in
front of all others. -/
def withMargin (first further text : String) : String :=
  match text.toList.splitOn '\n' with
  | [] => first
  | line :: lines =>
    let rest := lines.map fun line => "\n" ++ further ++ String.ofList line
    first ++ String.ofList line ++ String.join rest

/-- Causes with their numbers. -/
def numbered (start : Nat) : List String → List String
  | [] => []
  | cause :: causes =>
    let number := toString start
    let margin := String.ofList (List.replicate (5 - number.length) ' ') ++ number ++ ": "
    withMargin margin "       " cause :: numbered (start + 1) causes

/-- The report of a failure. -/
def failureText (message : String) (causes : List String) : String :=
  let listed := match causes with
    | [] => []
    | [cause] => [withMargin "    " "    " cause]
    | causes => numbered 0 causes
  let behind := if listed.isEmpty then "" else "\n\nCaused by:\n" ++ "\n".intercalate listed
  s!"Error: {message}{behind}\n"

/-- A run that ends with a failure. -/
def failure (error : SiteError) : Outcome :=
  { code := 1, error := failureText error.message error.causes }

/-! ## Reports -/

/-- A page of a report as JSON. -/
def pageJson (page : Page) : Json :=
  .object [
    ("id", .text page.id), ("source_path", .text page.sourcePath), ("title", .text page.title)]

/-- A report as JSON. -/
def reportJson (report : Report) : Json :=
  .object [
    ("pages", .array (report.pages.map pageJson)),
    ("assets", .array (report.assets.map Json.text)),
    ("broken_links", .number report.brokenLinks)]

/-- A report as a summary. -/
def summary (site : Site) (report : Report) : String :=
  s!"Compiled {report.pages.length} pages and {report.assets.length} assets " ++
  s!"into {site.output}\n" ++
  if 0 < report.brokenLinks then s!"{report.brokenLinks} broken links\n" else ""

/-- A run that has compiled a site. -/
def compiled (site : Site) (asJson : Bool) : Except SiteError Report → Outcome
  | .error error => failure error
  | .ok report =>
    success (if asJson then (reportJson report).pretty ++ "\n" else summary site report)

end Outcome

variable {m : Type → Type} [Monad m]

/-- Find a site and do something with it. -/
def withSite (system : System m) (configFile : Option Path) (input output : Path)
    (act : Site → m Outcome) : m Outcome := do
  match ← Site.locate system configFile input output with
  | .error error => return Outcome.failure error
  | .ok site => act site

/-- Do what arguments ask for.  How a site is watched is not said here. -/
def run (system : System m) (generatedAt : Moment) (watch : Site → m Outcome)
    (arguments : List String) : m Outcome :=
  match Request.ofArguments? arguments with
  | none => return Outcome.refusal
  | some .version => return Outcome.success versionText
  | some (.help topic) => return Outcome.success (helpText topic)
  | some (.build configFile input output asJson) =>
    withSite system configFile input output fun site => do
      return Outcome.compiled site asJson (← site.compile system generatedAt)
  | some (.watch configFile input output) => withSite system configFile input output watch

end WikiPress.CommandLine
