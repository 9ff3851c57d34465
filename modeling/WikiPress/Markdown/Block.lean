import WikiPress.Markdown.Atom
import WikiPress.Markdown.LinkParts

/-!
# Blocks

A document is a sequence of blocks.  Running text is kept as atoms until the
whole document has been read, because a link may be defined behind its use.
-/

namespace WikiPress.Markdown

/-- Running text with what is needed to read it on. -/
structure Prose where
  atoms : List Atom
  /-- The end of the block that holds the text. -/
  stop : Nat
  /-- The containers whose marks begin its lines. -/
  containers : List Container
  inTable : Bool := false
deriving Inhabited

/-- What a heading says about itself behind its text. -/
structure HeadingAttributes where
  id : Option String := none
  classes : List String := []
deriving DecidableEq, Repr, Inhabited

/-- A block of a document. -/
inductive Block where
  /-- A paragraph; that of a tight list item is not set apart. -/
  | paragraph (prose : Prose) (isTight : Bool)
  | heading (level : Nat) (attributes : HeadingAttributes) (prose : Prose)
  | quote (blocks : List Block)
  /-- A list of items; numbered lists have a first number. -/
  | list (first : Option Nat) (items : List Block)
  | item (blocks : List Block)
  /-- A code block; fenced ones have an info. -/
  | code (info : Option String) (content : String)
  | html (content : String)
  | thematicBreak
  | table (alignments : List Alignment) (head : List Prose) (rows : List (List Prose))
deriving Inhabited

/-- A document with the definitions of its links. -/
structure Document where
  blocks : List Block
  definitions : List Definition

namespace Block

/-- A block that stands directly in an item of a tight list. -/
def inTightItem : Block → Block
  | .paragraph prose _ => .paragraph prose true
  | other => other

/-- An item of a tight list. -/
def tightItem : Block → Block
  | .item blocks => .item (blocks.map inTightItem)
  | other => other

end Block

/-! ## Documents that are being read -/

/-- An open container with the blocks that it holds so far, the last first. -/
structure OpenContainer where
  container : Container
  /-- Whether a list has had no blank line between its parts. -/
  isTight : Bool := true
  blocks : List Block := []

/-- The block that an open container becomes. -/
def OpenContainer.close (frame : OpenContainer) : Block :=
  let blocks := frame.blocks.reverse
  match frame.container with
  | .quote => .quote blocks
  | .item _ => .item blocks
  | .list mark first =>
    let isNumbered := mark == '.' || mark == ')'
    .list (if isNumbered then some first else none)
      (if frame.isTight then blocks.map Block.tightItem else blocks)

/-- A document that is being read. -/
structure Draft where
  /-- The open containers, the innermost first. -/
  frames : List OpenContainer := []
  /-- The blocks outside all containers, the last first. -/
  blocks : List Block := []
  definitions : List Definition := []
  /-- Whether the last item began with a blank line and has had no content yet. -/
  awaitsContent : Bool := false
  /-- Whether a blank line has been read since the last block. -/
  afterBlank : Bool := false

namespace Draft

/-- The open containers, the outermost first. -/
def containers (draft : Draft) : List Container :=
  (draft.frames.map (·.container)).reverse

/-- Add a block to the innermost container. -/
def add (draft : Draft) (block : Block) : Draft :=
  match draft.frames with
  | [] => { draft with blocks := block :: draft.blocks }
  | frame :: frames =>
    { draft with frames := { frame with blocks := block :: frame.blocks } :: frames }

/-- Open a container. -/
def enter (draft : Draft) (container : Container) : Draft :=
  { draft with frames := { container } :: draft.frames }

/-- Close the innermost container. -/
def close (draft : Draft) : Draft :=
  match draft.frames with
  | [] => draft
  | frame :: frames =>
    let awaitsContent := match frame.container with
      | .list _ _ => draft.awaitsContent && !frame.isTight
      | _ => draft.awaitsContent
    { draft with frames, awaitsContent }.add frame.close

/-- Close a number of containers. -/
def closeMany (draft : Draft) : Nat → Draft
  | 0 => draft
  | count + 1 => closeMany draft.close count

/-- Close the containers but the outermost ones of a number. -/
def closeTo (draft : Draft) (count : Nat) : Draft :=
  draft.closeMany (draft.frames.length - count)

/-- Close an item that has stayed empty: at most one blank line may begin it. -/
def closeEmptyItem (draft : Draft) : Draft :=
  let closed := match draft.frames with
    | { container := .item _, .. } :: _ =>
      if draft.awaitsContent && draft.afterBlank then draft.close else draft
    | _ => draft
  { closed with awaitsContent := false }

/-- Close a list that is not continued.  A blank line in front of the next block
of an item makes the list around it loose. -/
def leaveList (draft : Draft) : Draft :=
  let draft := draft.closeEmptyItem
  let draft := match draft.frames with
    | { container := .list _ _, .. } :: _ => draft.close
    | _ => draft
  if draft.afterBlank then
    let frames := match draft.frames with
      | inner :: { container := .list mark first, blocks, .. } :: frames =>
        inner :: { container := .list mark first, isTight := false, blocks } :: frames
      | frames => frames
    { draft with frames, afterBlank := false }
  else
    draft

/-- Continue the list that a mark belongs to, or begin one.  A blank line between
two items makes their list loose. -/
def continueList (draft : Draft) (mark : ListMark) : Draft :=
  let draft := draft.closeEmptyItem
  let begun (draft : Draft) : Draft :=
    { draft.enter (.list mark.mark mark.number) with afterBlank := false }
  match draft.frames with
  | [] => begun draft
  | frame :: frames =>
    match frame.container with
    | .list other _ =>
      if other = mark.mark then
        { draft with
          frames := { frame with isTight := frame.isTight && !draft.afterBlank } :: frames
          afterBlank := false }
      else
        begun draft.leaveList
    | _ => begun draft.leaveList

/-- Note a blank line.  One in a quote does not count, and an item that has only
blank lines is continued without indentation. -/
def noteBlank (draft : Draft) : Draft :=
  match draft.frames with
  | { container := .quote, .. } :: _ => draft
  | { container := .item indent, isTight, blocks } :: frames =>
    let indent := if draft.awaitsContent then 0 else indent
    { draft with
      frames := { container := .item indent, isTight, blocks } :: frames
      afterBlank := true }
  | _ => { draft with afterBlank := true }

/-- The document, when all of it has been read. -/
def document (draft : Draft) : Document :=
  let closed := draft.closeTo 0
  { blocks := closed.blocks.reverse, definitions := closed.definitions }

end Draft

end WikiPress.Markdown
