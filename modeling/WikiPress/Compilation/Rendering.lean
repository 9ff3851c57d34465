import WikiPress.Config
import WikiPress.Html
import WikiPress.Loader
import WikiPress.Page
import WikiPress.Pragma
import WikiPress.TableOfContents

/-!
# Rendering a page

A page is loaded, its includes are expanded, its pragmas are taken out, and what
is left is read as Markdown and written as HTML.  The pages of a run share the
fragments that have been loaded and know each other's names.
-/

namespace WikiPress

open Files

/-- Why a page could not be rendered. -/
inductive PageError where
  | load (cause : LoadError)
  | expand (cause : IncludeError)
deriving DecidableEq, Repr

namespace PageError

def message : PageError → String
  | load cause => s!"Failed to load page: {cause.message}"
  | expand cause => s!"Include expansion failed: {cause.message}"

/-- The messages of the failures behind this one. -/
def causes : PageError → List String
  | load cause => cause.message :: cause.causes
  | expand cause => cause.message :: cause.causes

end PageError

/-- What the pages of a run share. -/
structure RenderContext where
  /-- The names of all pages of the run. -/
  pages : PageSet
  /-- The fragments that have been loaded. -/
  fragments : Include.Cache := {}
deriving DecidableEq, Repr, Inhabited

/-- The context in which the first page of a run is rendered. -/
def RenderContext.ofPages (pages : List Page) : RenderContext :=
  { pages := PageSet.ofPages pages }

/-- The HTML of a page, before it is put into the template. -/
structure RenderedPage where
  body : String
  brokenLinks : Nat
deriving DecidableEq, Repr, Inhabited

/-! ## Broken links -/

/-- Whether a token opens a link that leads to no page of the run. -/
def Token.opensBrokenLink (token : Token) : Bool :=
  token.kind = .linkOpen &&
    (token.attribute? "class").any fun classes => (Text.whiteSpaceWords classes).contains "broken"

/-- The number of links in a document that lead to no page of the run. -/
def brokenLinkCount (tokens : List Token) : Nat :=
  (tokens.flatMap fun token => token.children.getD []).countP Token.opensBrokenLink

/-! ## Rendering -/

/-- The final tokens of a page whose includes have been expanded and whose pragmas
have been taken out. -/
def Engine.pageTokens (engine : Engine) (pages : PageSet) (text : String) : List Token :=
  TableOfContents.expand engine pages (engine.tokenize pages text)

namespace Page

/-- A page with its sources: the text as it was loaded, and the same text with its
includes expanded. -/
def withSource (page : Page) (source expanded : String) : Page :=
  let (text, pragmas) := Pragma.extract expanded
  { page with
    title := pragmas.title.getD page.title
    rawSource := some source
    processedText := some text }

/-- Render a page that has its sources. -/
def renderSource (engine : Engine) (pages : PageSet) (page : Page) : RenderedPage :=
  let tokens := engine.pageTokens pages (page.processedText.getD "")
  { body := Html.render tokens, brokenLinks := brokenLinkCount tokens }

variable {m : Type → Type} [Monad m]

/-- Load a page and render it.  The answer comes with the page, whose texts and
title have been filled in if it could be rendered, and with the context, in which
the fragments that were loaded stay, also on failure. -/
def render (loader : Loader m) (includeLimit : Nat) (context : RenderContext) (page : Page) :
    m (Except PageError RenderedPage × Page × RenderContext) := do
  match ← loader.load page.sourcePath with
  | .error error => return (.error (.load error), page, context)
  | .ok source =>
    match ← Include.expand loader includeLimit context.fragments source with
    | (.error error, fragments) =>
      return (.error (.expand error), page, { context with fragments })
    | (.ok expanded, fragments) =>
      let filled := page.withSource source expanded
      return (.ok (renderSource Engine.wiki context.pages filled), filled,
        { context with fragments })

end Page

end WikiPress
