import WikiPress.Markdown.Window

/-!
# Links in angle brackets

A URI or a mail address between `<` and `>` is a link to itself.
-/

namespace WikiPress.Markdown

open Text

/-- Whether a byte may stand in the scheme of a URI, behind its first letter. -/
def isSchemeChar (char : Char) : Bool :=
  isAsciiAlphanumeric char || char == '.' || char == '-' || char == '+'

/-- Whether a byte may stand in a URI behind its scheme. -/
def isUriChar (char : Char) : Bool :=
  ' ' < char && char != '<' && char != '>'

/-- The end of a URI at an offset, which has to be followed by `>`.  A scheme has
from two to thirty-two characters. -/
def uriEnd? (window : Window) (offset : Nat) : Option Nat :=
  let colon := window.skipWhile isSchemeChar offset
  let length := colon - offset
  if window.holds offset isAsciiLetter && window.has colon ':' && 2 ≤ length && length ≤ 32 then
    let stop := window.skipWhile isUriChar colon
    if window.has stop '>' then some stop else none
  else
    none

/-- Whether a byte may stand in a mail address in front of the `@`. -/
def isMailboxChar (char : Char) : Bool :=
  isAsciiAlphanumeric char || ".!#$%&'*+/=?^_\x60\x7b|\x7d~-".toList.contains char

/-- The end of the labels of a host name that starts at an offset.  A label has
at most sixty-three characters and no hyphen at its ends. -/
def hostEnd? (window : Window) : Nat → Nat → Option Nat
  | 0, _ => none
  | fuel + 1, offset =>
    let isLabelChar (char : Char) : Bool := isAsciiAlphanumeric char || char == '-'
    let stop := window.skipWhile isLabelChar offset
    if stop = offset || 63 < stop - offset || window.has offset '-'
        || window.has (stop - 1) '-' then
      none
    else if window.has stop '.' then
      hostEnd? window fuel (stop + 1)
    else
      some stop

/-- The end of a mail address at an offset, which has to be followed by `>`. -/
def addressEnd? (window : Window) (offset : Nat) : Option Nat :=
  let sign := window.skipWhile isMailboxChar offset
  if offset < sign && window.has sign '@' then
    (hostEnd? window (window.stop - sign) (sign + 1)).filter (window.has · '>')
  else
    none

/-- The link at an offset behind a `<`: the end of its text and its target. -/
def autolink? (window : Window) (offset : Nat) : Option (Nat × String) :=
  match uriEnd? window offset with
  | some stop => some (stop, window.slice offset stop)
  | none =>
    (addressEnd? window offset).map fun stop => (stop, "mailto:" ++ window.slice offset stop)

end WikiPress.Markdown
