import WikiPress.Engine

/-!
# Tables of contents

A mark `#toc` in running text or in an HTML block is replaced by a list of the
document's headings: those of the topmost level, or, with a digit behind the mark,
those down to that level.  The text around the mark stays.
-/

namespace WikiPress.TableOfContents

/-- A heading as it is listed. -/
structure Entry where
  level : Nat
  id : String
  /-- The source of the heading's text. -/
  text : String
deriving DecidableEq, Repr, Inhabited

/-- The entry of a heading that is followed by certain tokens. -/
def Entry.ofHeading? (token : Token) (rest : List Token) : Option Entry :=
  token.headingLevel?.map fun level =>
    let text := match rest with
      | next :: _ => if next.kind = .inline then next.content else ""
      | [] => ""
    { level, id := (token.attribute? "id").getD "", text }

/-- The headings among tokens. -/
def entries : List Token → List Entry
  | [] => []
  | token :: rest =>
    if token.kind = .headingOpen then
      (Entry.ofHeading? token rest).toList ++ entries rest
    else
      entries rest

/-- The topmost level of headings. -/
def topLevel (entries : List Entry) : Nat :=
  ((entries.map Entry.level).min?).getD 1

/-! ## The list -/

/-- How deep entries are nested: a heading stands below the last one of a smaller
level, and at most one step deeper than the one before it.  `previous` is how deep
that one is nested. -/
def depths (top : Nat) : (previous : Option Nat) → List Entry → List Nat
  | _, [] => []
  | previous, entry :: rest =>
    let depth := match previous with
      | some previous => min (entry.level - top) (previous + 1)
      | none => 0
    depth :: depths top (some depth) rest

/-- The line of an entry. -/
def line (entry : Entry) (depth : Nat) : String :=
  String.join (List.replicate depth "   ") ++ s!"1. [{entry.text}](#{entry.id})\n"

/-- The list of the entries down to a level, as Markdown. -/
def markdown (entries : List Entry) (top requested : Nat) : String :=
  let listed := entries.filter fun entry => entry.level ≤ requested
  String.join ((listed.zip (depths top none listed)).map fun (entry, depth) => line entry depth)

/-- The tokens of the list of the entries down to a level; nothing if there are
none. -/
def listTokens (engine : Engine) (pages : PageSet) (entries : List Entry) (top requested : Nat) :
    List Token :=
  let source := markdown entries top requested
  if source.isEmpty then
    []
  else
    match engine.tokenize pages source with
    | [] => []
    | first :: rest => first.joinAttribute "class" "table-of-contents" :: rest

/-! ## The mark -/

/-- A piece of a text: text without marks, or a mark with the level it asks for. -/
inductive Piece where
  | text (chars : List Char)
  | mark (requested : Option Nat)
deriving DecidableEq, Repr, Inhabited

/-- The level behind a mark and the text behind that; a digit belongs to the mark
if white space separates them. -/
def requestedLevel (chars : List Char) : Option Nat × List Char :=
  let behind := chars.dropWhile Text.isWhiteSpace
  match behind with
  | digit :: rest =>
    if behind.length < chars.length && Text.isDecimalDigit digit then
      (Text.digitValue? digit, rest)
    else
      (none, chars)
  | [] => (none, chars)

/-- Text in front of pieces. -/
def Piece.cons (char : Char) : List Piece → List Piece
  | .text chars :: pieces => .text (char :: chars) :: pieces
  | pieces => .text [char] :: pieces

/-- The pieces of a text; there is no empty text among them. -/
def pieces : Nat → List Char → List Piece
  | 0, _ => []
  | _, [] => []
  | fuel + 1, '#' :: 't' :: 'o' :: 'c' :: rest =>
    let (requested, behind) := requestedLevel rest
    .mark requested :: pieces fuel behind
  | fuel + 1, char :: rest => Piece.cons char (pieces fuel rest)

/-- The pieces of a text. -/
def piecesOf (text : String) : List Piece :=
  pieces text.length text.toList

/-- Whether a piece is a mark. -/
def Piece.isMark : Piece → Bool
  | .mark _ => true
  | .text _ => false

/-- A copy of a token with another content. -/
def fragment (engine : Engine) (pages : PageSet) (token : Token) (content : String) : Token :=
  let copy := token.withContent content
  if copy.kind = .inline then
    { copy with children := some (engine.tokenizeInline pages content) }
  else
    copy

/-- The tokens that take the place of a token. -/
def expandToken (engine : Engine) (pages : PageSet) (entries : List Entry) (token : Token) :
    List Token :=
  let pieces := piecesOf token.content
  if (token.kind = .inline || token.kind = .htmlBlock) && pieces.any Piece.isMark then
    let top := topLevel entries
    pieces.flatMap fun
      | .text chars => [fragment engine pages token (String.ofList chars)]
      | .mark requested => listTokens engine pages entries top (requested.getD top)
  else
    [token]

/-- Replace the marks among tokens by lists of the headings among them. -/
def expand (engine : Engine) (pages : PageSet) (tokens : List Token) : List Token :=
  tokens.flatMap (expandToken engine pages (entries tokens))

end WikiPress.TableOfContents
