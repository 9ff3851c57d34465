import WikiPress.Loader
import WikiPress.Page

/-!
# Discovering pages

The pages of a site are known from the names of their files, before any of them
is read.  No two of them may have the same name, because a page is written to a
file of its name.
-/

namespace WikiPress

open Files

/-- Two source files whose pages have the same name. -/
structure PageClash where
  id : String
  /-- The file that came first. -/
  first : Path
  second : Path
deriving DecidableEq, Repr

def PageClash.message (clash : PageClash) : String :=
  s!"Duplicate page id '{clash.id}' ({clash.first} and {clash.second})"

namespace Page

/-- The pages of files behind pages that have been found, up to the first clash. -/
def discoverFrom (found : List Page) : List Path → Except PageClash (List Page)
  | [] => .ok found
  | path :: paths =>
    let page := ofFileName path
    match found.find? (·.id == page.id) with
    | some earlier => .error { id := page.id, first := earlier.sourcePath, second := path }
    | none => discoverFrom (found ++ [page]) paths

/-- The pages of files, in their order. -/
def discover (paths : List Path) : Except PageClash (List Page) :=
  discoverFrom [] paths

end Page

end WikiPress
