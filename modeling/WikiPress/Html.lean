import WikiPress.Text.Replace
import WikiPress.Text.Unicode
import WikiPress.Token

/-!
# HTML

Tokens are written as HTML one after the other.  Text and the names and values of
attributes are escaped; raw HTML is written as it is.  A tag of the block
structure ends its line, unless an opening tag is followed by its own content or
by its own closing tag.
-/

namespace WikiPress.Html

open WikiPress.Text

/-- Text with the characters that have a meaning in HTML written as entities.
Ampersands come first, so those of the entities are not escaped again. -/
def escape (text : String) : String :=
  Text.replace "\"" "&quot;" <| Text.replace ">" "&gt;" <| Text.replace "<" "&lt;" <|
    Text.replace "&" "&amp;" text

/-- The attributes of a token, each behind a space. -/
def attributes (token : Token) : String :=
  String.join (token.attributes.map fun (name, value) =>
    " " ++ escape name ++ "=\"" ++ escape value ++ "\"")

/-- Whether the tag of a token ends its line, given the token behind it. -/
def endsLine (token : Token) (next : Option Token) : Bool :=
  token.isBlock &&
    match token.nesting, next with
    | .opening, some next =>
      !(next.kind = .inline || next.isHidden
        || (next.nesting = .closing && next.tag = token.tag))
    | _, _ => true

/-- The tag of a token.  Behind a hidden token a tag of the block structure that
does not close anything starts a new line. -/
def tag (afterHidden : Bool) (token : Token) (next : Option Token) : String :=
  if token.isHidden then ""
  else
    (if token.isBlock && token.nesting ≠ .closing && afterHidden then "\n" else "")
      ++ (if token.nesting = .closing then "</" else "<")
      ++ token.tag ++ attributes token
      ++ (if endsLine token next then ">\n" else ">")

/-- One token of inline content. -/
def inlineToken (afterHidden : Bool) (token : Token) (next : Option Token) : String :=
  match token.kind with
  | .text => escape token.content
  | .codeInline => "<code" ++ attributes token ++ ">" ++ escape token.content ++ "</code>"
  | .htmlInline => token.content
  | .softbreak => "\n"
  | .hardbreak => "<br>\n"
  | _ => tag afterHidden token next

/-- Write tokens one after the other, each with the tokens beside it in view. -/
def pieces (write : Bool → Token → Option Token → String) (afterHidden : Bool) :
    List Token → List String
  | [] => []
  | token :: rest =>
    write afterHidden token rest.head? :: pieces write token.isHidden rest

/-- The HTML of inline content. -/
def renderInline (tokens : List Token) : String :=
  String.join (pieces inlineToken false tokens)

/-- A fenced block: the first word behind its opening marks names its language. -/
def fence (token : Token) : String :=
  let language := (whiteSpaceWords token.info).head?.getD ""
  "<pre><code"
    ++ (if language.isEmpty then "" else " class=\"language-" ++ escape language ++ "\"")
    ++ ">" ++ escape token.content ++ "</code></pre>\n"

/-- One token of a document. -/
def blockToken (afterHidden : Bool) (token : Token) (next : Option Token) : String :=
  match token.kind with
  | .inline => renderInline (token.children.getD [])
  | .codeBlock => "<pre><code>" ++ escape token.content ++ "</code></pre>\n"
  | .fence => fence token
  | .htmlBlock => token.content
  | _ => tag afterHidden token next

/-- The HTML of a document. -/
def render (tokens : List Token) : String :=
  String.join (pieces blockToken false tokens)

end WikiPress.Html
