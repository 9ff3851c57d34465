import WikiPress.Markdown.Brackets
import WikiPress.Markdown.DocumentReader

/-!
# Events of a document

A document is also a sequence of events, in which blocks are entered and left and
running text stands between.  Every block that is entered is left again, the
last one first.
-/

namespace WikiPress.Markdown

/-- A block that is entered. -/
inductive BlockTag where
  | paragraph
  | heading (level : Nat) (attributes : HeadingAttributes)
  | quote
  | code (info : Option String)
  | html
  /-- A list; a numbered one has a first number. -/
  | list (first : Option Nat)
  | item
  | table (alignments : List Alignment)
  | tableHead
  | tableRow
  | tableCell
deriving DecidableEq, Repr, Inhabited

/-- The kind of a block, which tells which one is left. -/
inductive BlockTag.Kind where
  | paragraph
  | heading (level : Nat)
  | quote | code | html
  | list (isNumbered : Bool)
  | item | table | tableHead | tableRow | tableCell
deriving DecidableEq, Repr, Inhabited

/-- The kind of a block. -/
def BlockTag.kind : BlockTag → BlockTag.Kind
  | .paragraph => .paragraph
  | .heading level _ => .heading level
  | .quote => .quote
  | .code _ => .code
  | .html => .html
  | .list first => .list first.isSome
  | .item => .item
  | .table _ => .table
  | .tableHead => .tableHead
  | .tableRow => .tableRow
  | .tableCell => .tableCell

/-- What happens in a document. -/
inductive Event where
  | enter (tag : BlockTag)
  | leave (kind : BlockTag.Kind)
  | thematicBreak
  /-- The content of a code block or an HTML block. -/
  | literal (content : String)
  | inline (event : InlineEvent)
deriving DecidableEq, Repr, Inhabited

namespace Event

/-- Events between entering and leaving a block. -/
def inside (tag : BlockTag) (events : List Event) : List Event :=
  .enter tag :: (events ++ [.leave tag.kind])

/-- The events of running text. -/
def ofProse (source : Window) (definitions : List Definition) (prose : Prose) : List Event :=
  (prose.events source definitions).map .inline

/-- The events of a row of a table. -/
def ofRow (source : Window) (definitions : List Definition) (tag : BlockTag) (cells : List Prose) :
    List Event :=
  inside tag (cells.flatMap fun cell => inside .tableCell (ofProse source definitions cell))

mutual

/-- The events of a block. -/
def ofBlock (source : Window) (definitions : List Definition) : Block → List Event
  | .paragraph prose isTight =>
    let events := ofProse source definitions prose
    if isTight then events else inside .paragraph events
  | .heading level attributes prose =>
    inside (.heading level attributes) (ofProse source definitions prose)
  | .quote blocks => inside .quote (ofBlocks source definitions blocks)
  | .list first items => inside (.list first) (ofBlocks source definitions items)
  | .item blocks => inside .item (ofBlocks source definitions blocks)
  | .code info content => inside (.code info) [.literal content]
  | .html content => inside .html [.literal content]
  | .thematicBreak => [.thematicBreak]
  | .table alignments head rows =>
    inside (.table alignments)
      (ofRow source definitions .tableHead head
        ++ rows.flatMap (ofRow source definitions .tableRow))

/-- The events of blocks. -/
def ofBlocks (source : Window) (definitions : List Definition) : List Block → List Event
  | [] => []
  | block :: blocks =>
    ofBlock source definitions block ++ ofBlocks source definitions blocks

end

/-- The events of a text. -/
def ofText (text : String) : List Event :=
  let document := Document.ofText text
  ofBlocks (Window.whole text) document.definitions document.blocks

end Event

end WikiPress.Markdown
