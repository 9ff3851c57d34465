import WikiPress.Text.Ascii

/-!
# Tokens

A document is a flat list of tokens.  Containers are pairs of an opening and a
closing token; the content of a paragraph, a heading or a table cell is a single
token of kind `inline` whose children are the inline tokens.
-/

namespace WikiPress

/-- What a token stands for. -/
inductive Token.Kind where
  | paragraphOpen | paragraphClose
  | headingOpen | headingClose
  | blockquoteOpen | blockquoteClose
  | bulletListOpen | bulletListClose
  | orderedListOpen | orderedListClose
  | listItemOpen | listItemClose
  | tableOpen | tableClose
  | theadOpen | theadClose
  | tbodyOpen | tbodyClose
  | trOpen | trClose
  | thOpen | thClose
  | tdOpen | tdClose
  | hr | codeBlock | fence | htmlBlock | inline
  | text | codeInline | htmlInline | softbreak | hardbreak
  | emOpen | emClose
  | strongOpen | strongClose
  | strikethroughOpen | strikethroughClose
  | linkOpen | linkClose
  | image
deriving DecidableEq, Repr, Inhabited

/-- Whether a token opens a container, closes one, or stands alone. -/
inductive Token.Nesting where
  | opening | leaf | closing
deriving DecidableEq, Repr, Inhabited

/-- An element of a document. -/
structure Token where
  kind : Token.Kind
  /-- Name of its tag, empty for tokens without one. -/
  tag : String := ""
  nesting : Token.Nesting := .leaf
  /-- Attributes, in the order in which they are written. -/
  attributes : List (String × String) := []
  content : String := ""
  /-- What stands behind the opening marks of a fenced block. -/
  info : String := ""
  children : Option (List Token) := none
  /-- Whether the token belongs to the block structure. -/
  isBlock : Bool := false
  /-- Whether the tag is left out, as for paragraphs of tight lists. -/
  isHidden : Bool := false
deriving Inhabited

namespace Token

namespace Kind

/-- The kinds with their names. -/
def names : List (Kind × String) := [
  (paragraphOpen, "paragraph_open"), (paragraphClose, "paragraph_close"),
  (headingOpen, "heading_open"), (headingClose, "heading_close"),
  (blockquoteOpen, "blockquote_open"), (blockquoteClose, "blockquote_close"),
  (bulletListOpen, "bullet_list_open"), (bulletListClose, "bullet_list_close"),
  (orderedListOpen, "ordered_list_open"), (orderedListClose, "ordered_list_close"),
  (listItemOpen, "list_item_open"), (listItemClose, "list_item_close"),
  (tableOpen, "table_open"), (tableClose, "table_close"),
  (theadOpen, "thead_open"), (theadClose, "thead_close"),
  (tbodyOpen, "tbody_open"), (tbodyClose, "tbody_close"),
  (trOpen, "tr_open"), (trClose, "tr_close"),
  (thOpen, "th_open"), (thClose, "th_close"),
  (tdOpen, "td_open"), (tdClose, "td_close"),
  (hr, "hr"), (codeBlock, "code_block"), (fence, "fence"), (htmlBlock, "html_block"),
  (inline, "inline"), (text, "text"), (codeInline, "code_inline"),
  (htmlInline, "html_inline"), (softbreak, "softbreak"), (hardbreak, "hardbreak"),
  (emOpen, "em_open"), (emClose, "em_close"),
  (strongOpen, "strong_open"), (strongClose, "strong_close"),
  (strikethroughOpen, "s_open"), (strikethroughClose, "s_close"),
  (linkOpen, "link_open"), (linkClose, "link_close"), (image, "image")]

/-- The name of a kind. -/
def name (kind : Kind) : String :=
  (names.lookup kind).getD ""

/-- The kind of a name. -/
def ofName? (name : String) : Option Kind :=
  (names.find? fun (_, other) => other = name).map (·.1)

end Kind

/-- A token of the inline content. -/
def ofKind (kind : Kind) (tag : String) (nesting : Nesting) : Token :=
  { kind, tag, nesting }

/-- A token of the block structure. -/
def block (kind : Kind) (tag : String) (nesting : Nesting) : Token :=
  { kind, tag, nesting, isBlock := true }

/-- A token of plain text. -/
def ofText (content : String) : Token :=
  { kind := .text, content }

/-- The value of the first attribute of a name. -/
def attribute? (token : Token) (name : String) : Option String :=
  token.attributes.lookup name

/-- A token with an attribute added at the end. -/
def addAttribute (token : Token) (name value : String) : Token :=
  { token with attributes := token.attributes ++ [(name, value)] }

/-- Change the first value of a name in a list of attributes, or add one. -/
def updateFirst (name : String) (change : String → String) (initial : String) :
    List (String × String) → List (String × String)
  | [] => [(name, initial)]
  | (other, value) :: rest =>
    if other = name then (other, change value) :: rest
    else (other, value) :: updateFirst name change initial rest

/-- A token with an attribute set; it takes the place of the first of its name. -/
def setAttribute (token : Token) (name value : String) : Token :=
  { token with attributes := updateFirst name (fun _ => value) value token.attributes }

/-- A token with a word added to an attribute that is a list of words. -/
def joinAttribute (token : Token) (name value : String) : Token :=
  let change (existing : String) : String :=
    if existing.isEmpty then value else existing ++ " " ++ value
  { token with attributes := updateFirst name change value token.attributes }

/-- A token with another content. -/
def withContent (token : Token) (content : String) : Token :=
  { token with content }

/-- The number that a level is written with: decimal digits, perhaps behind a
plus sign. -/
def levelNumber? (chars : List Char) : Option Nat :=
  match chars with
  | '+' :: digits => Text.decimal? digits
  | digits => Text.decimal? digits

/-- The level of a heading, from one to six, as its tag says. -/
def headingLevel? (token : Token) : Option Nat :=
  match token.tag.toList with
  | 'h' :: digits => (levelNumber? digits).filter fun level => 1 ≤ level && level ≤ 6
  | _ => none

mutual

/-- The text of a token's children, without markup. -/
def plainText (token : Token) : String :=
  match token with
  | { children := some tokens, .. } => plainTextOf tokens
  | { children := none, .. } => ""

/-- The text of a list of inline tokens, without markup. -/
def plainTextOf (tokens : List Token) : String :=
  match tokens with
  | [] => ""
  | token :: rest =>
    let own := match token.kind with
      | .text => token.content
      | .codeInline => token.content
      | .softbreak => " "
      | .hardbreak => " "
      | .image => plainText token
      | _ => ""
    own ++ plainTextOf rest

end

/-- The tag of a heading of a level; levels beyond six share one. -/
def headingTag (level : Nat) : String :=
  if 1 ≤ level && level ≤ 5 then s!"h{level}" else "h6"

end Token

end WikiPress
