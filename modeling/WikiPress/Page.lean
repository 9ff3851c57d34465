import WikiPress.Files.Path
import WikiPress.Slug

/-!
# Pages

A page is made from the name of its source file, before anything is read; the
texts and the title are filled in when it is compiled.
-/

namespace WikiPress

/-- A source page. -/
structure Page where
  /-- Canonical name, and the stem of the output file. -/
  id : String
  /-- Path of the source file below the input directory. -/
  sourcePath : String
  /-- Displayed title. -/
  title : String
  /-- The text as it was loaded. -/
  rawSource : Option String := none
  /-- The text behind include expansion and pragma extraction. -/
  processedText : Option String := none
deriving DecidableEq, Repr, Inhabited

namespace Page

/-- A page that has not been read; its title is its name until a pragma says
otherwise. -/
def ofId (id sourcePath : String) : Page :=
  { id, sourcePath, title := id }

/-- The page of a source file: `My Page.md` has the name `my-page`. -/
def ofFileName (path : String) : Page :=
  ofId (slugify ((Files.Path.fileStem? path).getD path)) path

/-- The output file of a page, below the output directory. -/
def outputPath (page : Page) : String :=
  page.id ++ ".html"

end Page

/-- The names of all pages of a site, against which links are resolved. -/
structure PageSet where
  ids : List String := []
deriving DecidableEq, Repr, Inhabited

namespace PageSet

/-- The names of pages. -/
def ofPages (pages : List Page) : PageSet :=
  ⟨pages.map Page.id⟩

/-- Whether there is a page of a name. -/
def contains (pages : PageSet) (id : String) : Bool :=
  pages.ids.contains id

end PageSet

end WikiPress
