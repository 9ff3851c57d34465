import WikiPress.Text.Ascii

/-!
# Slugs

A page is known by its slug.  In it every run of characters other than ASCII
letters and digits has become one hyphen, no hyphen stands at either end, and all
letters are in lower case.  The name of a source file and the target of a link
are both brought to this form, so a link finds a page exactly when their words
agree up to case.
-/

namespace WikiPress

namespace Slug

open WikiPress.Text

/-- Write every run of separators as one hyphen.  `inRun` tells whether the
character before was a separator. -/
def collapse (inRun : Bool) : List Char → List Char
  | [] => []
  | char :: chars =>
    if isAsciiAlphanumeric char then char :: collapse false chars
    else if inRun then collapse true chars
    else '-' :: collapse true chars

/-- Characters without the hyphens at their ends. -/
def trimHyphens (chars : List Char) : List Char :=
  ((chars.dropWhile (· = '-')).reverse.dropWhile (· = '-')).reverse

end Slug

/-- The canonical form of a name. -/
def slugify (name : String) : String :=
  String.ofList ((Slug.trimHyphens (Slug.collapse false name.toList)).map Text.lowerAscii)

end WikiPress
