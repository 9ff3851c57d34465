import WikiPress.Inline.Tokenizer
import WikiPress.Markdown.Event

/-!
# Tokens of a document

The events of a document become tokens.  Running text is collected until its
block ends, and becomes one token with inline tokens inside.  Text that stands
directly in a list item gets a hidden paragraph of its own.  The rows of a table
are grouped into a head and a body.
-/

namespace WikiPress

open Markdown

/-- The style of a cell with an alignment. -/
def Markdown.Alignment.style? : Markdown.Alignment → Option String
  | .none => Option.none
  | .left => some "text-align:left"
  | .center => some "text-align:center"
  | .right => some "text-align:right"

/-- The table that is being read. -/
structure TableProgress where
  alignments : List Markdown.Alignment := []
  /-- The number of the current cell in its row. -/
  cell : Nat := 0
  inHead : Bool := false
  hasBody : Bool := false
deriving Inhabited

/-- The style of the current cell. -/
def TableProgress.cellStyle? (table : TableProgress) : Option String :=
  (table.alignments[table.cell]?).bind Alignment.style?

/-- The tokens of the events up to some point. -/
structure BlockBuilder where
  source : String
  rules : List InlineRule
  pages : PageSet
  /-- The tokens, the last first. -/
  tokens : List Token := []
  /-- Events of running text that are not yet in a token, the last first. -/
  run : List InlineEvent := []
  /-- Whether a hidden paragraph is open. -/
  isHiddenOpen : Bool := false
  /-- The token of a code block or an HTML block whose content is being read. -/
  literal : Option Token := none
  table : TableProgress := {}

namespace BlockBuilder

/-- Add a token. -/
def push (builder : BlockBuilder) (token : Token) : BlockBuilder :=
  { builder with tokens := token :: builder.tokens }

/-- Add a token that opens a block. -/
def openBlock (builder : BlockBuilder) (kind : Token.Kind) (tag : String) : BlockBuilder :=
  builder.push (Token.block kind tag .opening)

/-- Add a token that closes a block. -/
def closeBlock (builder : BlockBuilder) (kind : Token.Kind) (tag : String) : BlockBuilder :=
  builder.push (Token.block kind tag .closing)

/-- The token of a run of events. -/
def runToken (builder : BlockBuilder) (events : List InlineEvent) : Token :=
  let units := SourceUnit.ofEvents builder.source events
  { Token.ofKind .inline "" .leaf with
    content := SourceUnit.runContent builder.source units
    children := some (tokenizeRun builder.source builder.pages builder.rules units) }

/-- Running text that has been collected becomes a token. -/
def flushRun (builder : BlockBuilder) : BlockBuilder :=
  { builder with run := [] }.push (builder.runToken builder.run.reverse)

/-- Close a hidden paragraph, if one is open. -/
def closeHidden (builder : BlockBuilder) : BlockBuilder :=
  if builder.isHiddenOpen then
    { builder.flushRun with isHiddenOpen := false }.push
      { Token.block .paragraphClose "p" .closing with isHidden := true }
  else
    builder

/-- Whether the last token opens a block that holds running text. -/
def isInTextBlock (builder : BlockBuilder) : Bool :=
  match builder.tokens with
  | [] => false
  | last :: _ => [.paragraphOpen, .headingOpen, .thOpen, .tdOpen].contains last.kind

/-- Collect an event of running text. -/
def addInline (builder : BlockBuilder) (event : InlineEvent) : BlockBuilder :=
  let opened :=
    if !builder.isInTextBlock && !builder.isHiddenOpen && builder.run.isEmpty then
      { builder with isHiddenOpen := true }.push
        { Token.block .paragraphOpen "p" .opening with isHidden := true }
    else
      builder
  { opened with run := event :: opened.run }

/-- The token that opens a heading. -/
def headingToken (level : Nat) (attributes : HeadingAttributes) : Token :=
  let token := Token.block .headingOpen (Token.headingTag level) .opening
  let named := match attributes.id with
    | some id => token.addAttribute "id" id
    | none => token
  attributes.classes.foldl (fun token name => token.joinAttribute "class" name) named

/-- The token that opens a list. -/
def listToken : Option Nat → Token
  | none => Token.block .bulletListOpen "ul" .opening
  | some first =>
    let token := Token.block .orderedListOpen "ol" .opening
    if first = 1 then token else token.addAttribute "start" (toString first)

/-- The token of a code block. -/
def codeToken : Option String → Token
  | none => Token.block .codeBlock "code" .leaf
  | some info => { Token.block .fence "code" .leaf with info }

/-- The token that opens the current cell of a table. -/
def cellToken (table : TableProgress) : Token :=
  let token :=
    if table.inHead then Token.block .thOpen "th" .opening else Token.block .tdOpen "td" .opening
  match table.cellStyle? with
  | some style => token.addAttribute "style" style
  | none => token

/-- Enter a block. -/
def enter (builder : BlockBuilder) : BlockTag → BlockBuilder
  | .paragraph => builder.closeHidden.openBlock .paragraphOpen "p"
  | .heading level attributes => builder.closeHidden.push (headingToken level attributes)
  | .quote => builder.closeHidden.openBlock .blockquoteOpen "blockquote"
  | .code info => { builder.closeHidden with literal := some (codeToken info) }
  | .html => { builder.closeHidden with literal := some (Token.block .htmlBlock "" .leaf) }
  | .list first => builder.closeHidden.push (listToken first)
  | .item => builder.closeHidden.openBlock .listItemOpen "li"
  | .table alignments =>
    { builder.closeHidden with table := { alignments } }.openBlock .tableOpen "table"
  | .tableHead =>
    let table := { builder.table with inHead := true, cell := 0 }
    ({ builder with table }.openBlock .theadOpen "thead").openBlock .trOpen "tr"
  | .tableRow =>
    let table := { builder.table with hasBody := true, cell := 0 }
    let inBody :=
      if builder.table.hasBody then { builder with table }
      else { builder with table }.openBlock .tbodyOpen "tbody"
    inBody.openBlock .trOpen "tr"
  | .tableCell => builder.push (cellToken builder.table)

/-- Leave a code block or an HTML block. -/
def closeLiteral (builder : BlockBuilder) : BlockBuilder :=
  match builder.literal with
  | some token => { builder with literal := none }.push token
  | none => builder

/-- Leave a block. -/
def leave (builder : BlockBuilder) : BlockTag.Kind → BlockBuilder
  | .paragraph => builder.flushRun.closeBlock .paragraphClose "p"
  | .heading level => builder.flushRun.closeBlock .headingClose (Token.headingTag level)
  | .quote => builder.closeHidden.closeBlock .blockquoteClose "blockquote"
  | .code => builder.closeLiteral
  | .html => builder.closeLiteral
  | .list true => builder.closeHidden.closeBlock .orderedListClose "ol"
  | .list false => builder.closeHidden.closeBlock .bulletListClose "ul"
  | .item => builder.closeHidden.closeBlock .listItemClose "li"
  | .table =>
    let body :=
      if builder.table.hasBody then builder.closeBlock .tbodyClose "tbody" else builder
    { body.closeBlock .tableClose "table" with table := {} }
  | .tableHead =>
    let head := (builder.closeBlock .trClose "tr").closeBlock .theadClose "thead"
    { head with table := { head.table with inHead := false } }
  | .tableRow => builder.closeBlock .trClose "tr"
  | .tableCell =>
    let flushed := builder.flushRun
    let closed :=
      if builder.table.inHead then flushed.closeBlock .thClose "th"
      else flushed.closeBlock .tdClose "td"
    { closed with table := { closed.table with cell := closed.table.cell + 1 } }

/-- Read the content of a code block or an HTML block.  Elsewhere it is an HTML
block of its own. -/
def addLiteral (builder : BlockBuilder) (content : String) : BlockBuilder :=
  match builder.literal with
  | some token => { builder with literal := some (token.withContent (token.content ++ content)) }
  | none =>
    builder.closeHidden.push ((Token.block .htmlBlock "" .leaf).withContent content)

/-- Read an event. -/
def step (builder : BlockBuilder) : Event → BlockBuilder
  | .enter tag => builder.enter tag
  | .leave kind => builder.leave kind
  | .thematicBreak => builder.closeHidden.push (Token.block .hr "hr" .leaf)
  | .literal content => builder.addLiteral content
  | .inline event => builder.addInline event

/-- The tokens, in order. -/
def finish (builder : BlockBuilder) : List Token :=
  builder.closeHidden.tokens.reverse

/-- The tokens of events. -/
def tokensOf (source : String) (rules : List InlineRule) (pages : PageSet) (events : List Event) :
    List Token :=
  (events.foldl step { source, rules, pages }).finish

end BlockBuilder

/-- The tokens of a text. -/
def blockTokens (rules : List InlineRule) (pages : PageSet) (text : String) : List Token :=
  BlockBuilder.tokensOf text rules pages (Event.ofText text)

end WikiPress
