import WikiPress.Calendar
import WikiPress.Text.Replace

/-!
# Page templates

A template is a text with markers: `{{prefixedtitle}}`, `{{title}}`,
`{{generatedate}}` and `{{body}}`.  The markers are replaced one kind after the
other, the body last, so the content of a page is never searched for markers.
-/

namespace WikiPress.Template

/-- The marker of a name. -/
def marker (name : String) : String :=
  "\x7b\x7b" ++ name ++ "\x7d\x7d"

/-- A template with its markers filled. -/
def fill (template title body : String) (generatedAt : Moment) : String :=
  let titled := Text.replace (marker "title") title
    (Text.replace (marker "prefixedtitle") (" - " ++ title) template)
  Text.replace (marker "body") body
    (Text.replace (marker "generatedate") generatedAt.format titled)

end WikiPress.Template
