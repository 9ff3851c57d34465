import WikiPress.BlockTokens
import WikiPress.Inline.WikiLink
import WikiPress.Slug

/-!
# The Markdown engine

An engine is a list of rules for running text.  It makes tokens of documents and
of snippets of running text.  Every heading of a document gets an id: its own, if
it has one, and otherwise the slug of its text, with a number behind it if an
earlier heading has that id.
-/

namespace WikiPress

/-! ## Ids of headings -/

namespace HeadingId

/-- The text that a heading is named for: that of the token behind it, if it is
running text. -/
def headingText (rest : List Token) : String :=
  match rest with
  | next :: _ => if next.kind = .inline then next.plainText else ""
  | [] => ""

/-- A slug with a number behind it. -/
def numbered (slug : String) (number : Nat) : String :=
  s!"{slug}-{number}"

/-- The first free id among a slug with numbers from `number` on.  Among one more
of them than there are used ids, one is free. -/
def firstFree (used : List String) (slug : String) : Nat → Nat → String
  | 0, number => numbered slug number
  | fuel + 1, number =>
    if used.contains (numbered slug number) then firstFree used slug fuel (number + 1)
    else numbered slug number

/-- The id of a heading with a slug, behind headings whose ids are used. -/
def fresh (used : List String) (slug : String) : String :=
  if used.contains slug then firstFree used slug used.length 1 else slug

/-- Give every heading an id that has none, behind headings whose ids are used. -/
def annotate (used : List String) : List Token → List Token
  | [] => []
  | token :: rest =>
    if token.kind = .headingOpen then
      match token.attribute? "id" with
      | some id => token :: annotate (id :: used) rest
      | none =>
        let id := fresh used (slugify (headingText rest))
        token.setAttribute "id" id :: annotate (id :: used) rest
    else
      token :: annotate used rest

end HeadingId

/-! ## Engines -/

/-- Rules for running text. -/
structure Engine where
  rules : List InlineRule := []

namespace Engine

/-- The engine that knows wiki links. -/
def wiki : Engine :=
  { rules := [WikiLink.rule] }

/-- The tokens of a document. -/
def tokenize (engine : Engine) (pages : PageSet) (text : String) : List Token :=
  HeadingId.annotate [] (blockTokens engine.rules pages text)

/-- The tokens inside a single paragraph. -/
def paragraphChildren? : List Token → Option (List Token)
  | [first, inline, last] =>
    if first.kind = .paragraphOpen && inline.kind = .inline && last.kind = .paragraphClose then
      some (inline.children.getD [])
    else
      none
  | _ => none

/-- A text token, unless the text is empty. -/
def textTokens (text : String) : List Token :=
  if text.isEmpty then [] else [Token.ofText text]

/-- The tokens of a snippet of running text.  A snippet that is no paragraph is
kept as text, and so is the white space around it. -/
def tokenizeInline (engine : Engine) (pages : PageSet) (text : String) : List Token :=
  let chars := text.toList
  let leading := chars.takeWhile Text.isWhiteSpace
  let inner := Text.trimEnd (chars.drop leading.length)
  if inner.isEmpty then
    textTokens text
  else
    let trailing := chars.drop (leading.length + inner.length)
    let trimmed := String.ofList inner
    let tokens :=
      (paragraphChildren? (blockTokens engine.rules pages trimmed)).getD [Token.ofText trimmed]
    textTokens (String.ofList leading) ++ tokens ++ textTokens (String.ofList trailing)

end Engine

end WikiPress
