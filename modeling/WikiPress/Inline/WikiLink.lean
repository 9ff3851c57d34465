import WikiPress.Inline.Tokenizer
import WikiPress.Pipe
import WikiPress.Slug

/-!
# Wiki links

`[[destination]]`, `[[destination#anchor]]` and `[[destination|label]]` link to the
page whose id is the slug of the destination.  If there is no such page, the link
is broken; it then leads to the page `404`, if there is one.
-/

namespace WikiPress.WikiLink

/-- The id of the page that broken links lead to. -/
def notFoundPage : String :=
  "404"

/-- Whether a text has a newline that no backslash escapes. -/
def hasBareNewline (escaped : Bool) : List Char → Bool
  | [] => false
  | char :: rest =>
    (char == '\n' && !escaped) || hasBareNewline (char == '\\' && !escaped) rest

/-- Where a link leads. -/
structure Target where
  destination : String
  /-- The anchor with its number sign, or nothing. -/
  anchor : String
deriving DecidableEq, Repr, Inhabited

/-- The target that is written as a text: the anchor begins at the first number
sign. -/
def Target.ofText (text : String) : Target :=
  let (destination, anchor) := text.toList.span (· != '#')
  { destination := String.ofList destination, anchor := String.ofList anchor }

/-- The address and the class of a link. -/
def Target.resolve (target : Target) (pages : PageSet) : String × String :=
  let slug := slugify target.destination
  if pages.contains slug then
    (slug ++ ".html" ++ target.anchor, "wiki-link")
  else if pages.contains notFoundPage then
    (notFoundPage ++ ".html#" ++ target.destination, "wiki-link broken")
  else
    (slug ++ ".html" ++ target.anchor, "wiki-link broken")

/-- Look for the first position from the cursor on, token by token, where two closing
brackets stand before `limit`.  The cursor is left where the search ends. -/
def findClose (tokenizer : Tokenizer) (limit : Nat) :
    Nat → InlineState → Option Nat × InlineState
  | 0, state => (none, state)
  | fuel + 1, state =>
    if state.position + 1 < limit then
      if Text.byteAt? state.source state.position == some ']'
          && Text.byteAt? state.source (state.position + 1) == some ']' then
        (some state.position, state)
      else
        findClose tokenizer limit fuel (tokenizer.skip state)
    else
      (none, state)

/-- The ranges of the target and of the label in a link's content, which starts at
an offset. -/
def ranges (content : String) (offset : Nat) : Span × Option Span :=
  let moved (span : Span) : Span := ⟨offset + span.start, offset + span.stop⟩
  match Pipe.ranges content (some 2) with
  | [] => (⟨offset, offset⟩, none)
  | target :: labels => (moved target, labels.head?.map moved)

/-- Write the label of a link. -/
def writeLabel (tokenizer : Tokenizer) (state : InlineState) (label : Span) : InlineState :=
  let inside :=
    { state with
      position := label.start
      limit := label.stop
      linkLevel := state.linkLevel + 1 }
  let written := tokenizer.tokenize inside
  { written with linkLevel := written.linkLevel - 1, limit := state.limit }

/-- Write a link and move behind it. -/
def write (tokenizer : Tokenizer) (state : InlineState) (target : Target) (label : Option Span)
    (stop : Nat) : InlineState :=
  let (address, cssClass) := target.resolve state.pages
  let opening :=
    ((Token.ofKind .linkOpen "a" .opening).addAttribute "href" address).addAttribute "class"
      cssClass
  let opened := state.push opening
  let labelled := match label with
    | some label => writeLabel tokenizer opened label
    | none => opened.pushText target.destination
  (labelled.push (Token.ofKind .linkClose "a" .closing)).goto stop

/-- Whether a link may begin at the cursor: two opening brackets, with room for a
character and two closing ones. -/
def mayBegin (state : InlineState) : Bool :=
  state.position + 5 ≤ state.limit
    && Text.byteAt? state.source state.position == some '['
    && Text.byteAt? state.source (state.position + 1) == some '['

/-- The target, the label and the end of the link from the cursor to two closing
brackets.  A link is not empty, stands on one line, and is balanced, as its label is. -/
def linkTo? (state : InlineState) (close : Nat) : Option (Target × Option Span × Nat) :=
  let start := state.position
  let contentStart := start + 2
  let content := Text.slice state.source contentStart close
  let (target, label) := ranges content contentStart
  if close = contentStart || hasBareNewline false content.toList
      || !state.isBalanced start (close + 2)
      || label.any fun label => !state.isBalanced label.start label.stop then
    none
  else
    some (Target.ofText (Text.slice state.source target.start target.stop), label, close + 2)

/-- Look for the end of the link at the cursor, put the cursor back, and read the link. -/
def read (tokenizer : Tokenizer) (state : InlineState) :
    Option (Target × Option Span × Nat) × InlineState :=
  let start := state.position
  let (close, searched) :=
    findClose tokenizer state.limit (state.limit - start) (state.goto (start + 2))
  let back := searched.goto start
  (close.bind (linkTo? back), back)

/-- The syntax of wiki links.  There are no links inside links, and a link is no
token that could be skipped. -/
def rule : InlineRule where
  name := "wikilink"
  parse tokenizer probe state :=
    if probe || 0 < state.linkLevel || !mayBegin state then
      { isMatch := false, state }
    else
      match read tokenizer state with
      | (none, back) => { isMatch := false, state := back }
      | (some (target, label, stop), back) =>
        { isMatch := true, state := write tokenizer back target label stop }

end WikiPress.WikiLink
