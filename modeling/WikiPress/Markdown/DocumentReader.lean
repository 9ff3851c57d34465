import WikiPress.Markdown.Block
import WikiPress.Markdown.DefinitionLines

/-!
# Reading documents

A document is read block by block.  Each block begins with a line; the marks of
open containers are passed over first, containers to which the line does not
belong are closed, and new ones are opened.  What then stands on the line decides
which block it begins, and that block reads as many further lines as it claims.

The readers take fuel, which is at least the number of bytes that are left:
every round of a loop reads at least one of them.
-/

namespace WikiPress.Markdown

open Text

/-! ## Code and HTML -/

/-- Spaces for columns of a tab that a container has not claimed. -/
def spaces (columns : Nat) : String :=
  String.ofList (List.replicate columns ' ')

/-- The text of a line up to the next line, whose line end is written as a newline. -/
def lineText (window : Window) (start stop : Nat) : String :=
  if window.has (stop - 2) '\r' then
    window.slice start (stop - 2) ++ window.slice (stop - 1) stop
  else
    window.slice start stop

/-- Read an indented code block whose next line begins at `start`, behind columns
that were not claimed: its content, the offset behind it, and whether its last
line was blank.  Blank lines at its end do not belong to it. -/
def readIndented (window : Window) (containers : List Container) :
    Nat → (start pending : Nat) → (isBlank : Bool) → (text kept : String) → String × Nat × Bool
  | 0, start, _, isBlank, _, kept => (kept, start, isBlank)
  | fuel + 1, start, pending, isBlank, text, kept =>
    let stop := window.nextLine start
    let text := text ++ spaces pending ++ lineText window start stop
    let kept := if isBlank then kept else text
    let (cursor, isInside) := LineCursor.enterLine window stop containers
    let (cursor, missing) := cursor.claim 4
    if !isInside || (missing != 0 && !cursor.isAtEnd) || cursor.position = window.stop then
      (kept, stop, isBlank)
    else
      readIndented window containers fuel cursor.position cursor.pending
        (window.isBlankRest cursor.position) text kept

/-- Read the lines of a fenced block: their text, and the offset behind the block. -/
def readFenced (window : Window) (containers : List Container) (mark : Char) (count indent : Nat) :
    Nat → Nat → String → String × Nat
  | 0, start, text => (text, start)
  | fuel + 1, start, text =>
    let (outer, isInside) := LineCursor.enterLine window start containers
    if isInside then
      let content := (outer.claim indent).1
      let (closing, missing) := content.claim (4 - indent)
      match (if missing = 0 then none else closingFence? window mark count closing.position) with
      | some stop => (text, (window.blankRest? stop).getD stop)
      | none =>
        let stop := window.nextLine content.position
        readFenced window containers mark count indent fuel stop
          (text ++ spaces content.pending ++ lineText window content.position stop)
    else
      (text, start)

/-- Whether certain bytes stand between two offsets. -/
def lineHolds (window : Window) (start stop : Nat) (chars : List Char) : Bool :=
  ((window.before stop).find? chars start).isSome

/-- Read an HTML block: its text, and the offset behind it. -/
def readHtml (window : Window) (containers : List Container) (htmlEnd : HtmlEnd) :
    Nat → (start columns : Nat) → String → String × Nat
  | 0, start, _, text => (text, start)
  | fuel + 1, start, columns, text =>
    let stop := window.nextLine start
    let text := text ++ spaces columns ++ lineText window start stop
    let (cursor, isInside) := LineCursor.enterLine window stop containers
    let isLast := match htmlEnd with
      | .line closing => lineHolds window start stop closing
      | .blank => cursor.isAtEnd || window.isBlankRest cursor.position
    if !isInside || isLast || cursor.position = window.stop then
      (text, stop)
    else
      readHtml window containers htmlEnd fuel cursor.position cursor.pending text

/-! ## Headings -/

/-- Whether a byte may stand in the attributes of a heading. -/
def isAttributeChar (char : Char) : Bool :=
  !"\x7b\x7d<>\\\n\r".toList.contains char

/-- The attributes in braces at the end of a heading: where the opening brace
stands, and the attributes. -/
def headingAttributes? (window : Window) (start stop : Nat) : Option (Nat × HeadingAttributes) :=
  let isTrailing (char : Char) : Bool := char == ' ' || char == '\t' || isLineEnd char
  let behind := window.trimBack isTrailing start stop
  if start < behind && window.has (behind - 1) '\x7d' then
    let inner := window.trimBack isAttributeChar start (behind - 1)
    if start < inner && window.has (inner - 1) '\x7b' then
      let isSpace (char : Char) : Bool := isAsciiBlank char && char != '\x0b'
      let words := ((window.slice inner (behind - 1)).toList.splitBy
        fun left right => isSpace left == isSpace right).filter fun word =>
          !word.all isSpace && 1 < Text.byteLength word
      let named (mark : Char) : List String :=
        words.filterMap fun
          | first :: rest => if first = mark then some (String.ofList rest) else none
          | [] => none
      some (inner - 1, { id := (named '#').getLast?, classes := named '.' })
    else
      none
  else
    none

/-- The last atom ends elsewhere. -/
def endLast (atoms : List Atom) (stop : Nat) : List Atom :=
  match atoms with
  | [] => []
  | last :: rest => { last with stop } :: rest

/-- The atoms of a heading without the number signs that close it; `stop` is the
end of its text.  The atoms stand last first. -/
def withoutClosing (window : Window) (start stop : Nat) (atoms : List Atom) : List Atom :=
  let isTrailing (char : Char) : Bool := char == ' ' || isLineEnd char
  let limit := window.trimBack isTrailing start stop
  let closer := window.trimBack (· == '#') start limit
  if closer = start then
    []
  else
    let content := window.trimBack (· == ' ') start closer
    endLast atoms (if content < closer then content else limit)

/-- Read a heading that begins with number signs, whose text begins at `start`. -/
def readHeading (window : Window) (containers : List Container) (level start : Nat) : Block × Nat :=
  let stop := window.nextLine start
  let (contentEnd, attributes) := (headingAttributes? window start stop).getD (stop, {})
  let (atoms, _, _) := readLine (window.before contentEnd) containers .plain [] start
  let atoms := (withoutClosing window start contentEnd atoms).reverse
  (.heading level attributes { atoms, stop, containers }, stop)

/-- The atoms before an offset.  An atom that the offset divides ends there; an
atom that begins there goes, but the backslash of a line break stays as text.
The atoms stand last first. -/
def atomsBefore (window : Window) (stop : Nat) : List Atom → List Atom
  | [] => []
  | atom :: rest =>
    if atom.stop ≤ stop then
      atom :: rest
    else if atom.start < stop then
      { atom with stop } :: rest
    else if atom.start = stop && 0 < stop && window.has (stop - 1) '\\' then
      match rest with
      | previous :: _ =>
        if previous.stop < stop then { start := stop - 1, stop, kind := atom.kind } :: rest
        else rest
      | [] => [{ start := stop - 1, stop, kind := atom.kind }]
    else
      atomsBefore window stop rest

/-- The attributes and the text of the heading that lines become when they are
underlined.  The atoms stand last first, and `stop` is the end of the lines. -/
def underlinedHeading (window : Window) (start stop : Nat) (atoms : List Atom) :
    HeadingAttributes × List Atom :=
  match headingAttributes? window start stop with
  | none => ({}, atoms)
  | some (brace, attributes) =>
    let content := window.trimBack isLineBlank start brace
    (attributes, endLast (atomsBefore window brace atoms) content)

/-! ## Tables -/

/-- Read the cells of a row, the last first, with the offset behind the row. -/
def readCells (window : Window) (containers : List Container) :
    Nat → Nat → List Prose → List Prose × Nat
  | 0, start, cells => (cells, start)
  | fuel + 1, start, cells =>
    let content := window.skipBlanks (window.skipOne '|' start)
    match window.lineEnd? content with
    | some nextLine => (cells, nextLine)
    | none =>
      let (atoms, stop, _) := readLine window containers .cell [] content
      readCells window containers fuel stop
        ({ atoms := atoms.reverse, stop, containers, inTable := true } :: cells)

/-- Read a row: missing cells are empty, and cells beyond the last column go. -/
def readRow (window : Window) (containers : List Container) (columns start : Nat) :
    List Prose × Nat :=
  let (cells, stop) := readCells window containers (window.stop - start + 1) start []
  let empty : Prose := { atoms := [], stop, containers, inTable := true }
  let filled := cells.reverse ++ List.replicate (columns - cells.length) empty
  (filled.take columns, stop)

/-- Read the rows behind the head of a table, with the offset behind them. -/
def readRows (window : Window) (containers : List Container) (columns : Nat) :
    Nat → Nat → List (List Prose) → List (List Prose) × Nat
  | 0, start, rows => (rows.reverse, start)
  | fuel + 1, start, rows =>
    let (cursor, isInside) := LineCursor.enterLine window start containers
    let content := cursor.claimAll.position
    if !isInside || endsLines window isInside true content then
      (rows.reverse, start)
    else
      let (cells, stop) := readRow window containers columns content
      readRows window containers columns fuel stop (cells :: rows)

/-- Read a table whose head begins at `start` and whose rows begin at `body`. -/
def readTable (window : Window) (containers : List Container) (alignments : List Alignment)
    (start body : Nat) : Block × Nat :=
  let columns := alignments.length
  let (head, _) := readRow window containers columns start
  let (rows, stop) := readRows window containers columns (window.stop - body + 1) body []
  (.table alignments head rows, stop)

/-! ## Paragraphs -/

/-- Read the lines of a paragraph from the one at `lineStart` on; `start` is where
the paragraph begins.  An underline makes it a heading and a delimiter row makes
it a table. -/
def readLines (window : Window) (containers : List Container) (start : Nat) :
    Nat → Nat → List Atom → Block × Nat
  | 0, lineStart, atoms =>
    (.paragraph { atoms := atoms.reverse, stop := lineStart, containers } false, lineStart)
  | fuel + 1, lineStart, atoms =>
    let role : LineRole := if lineStart = start then .first else .plain
    let (atoms, nextLine, lineEnd) := readLine window containers role atoms lineStart
    match lineEnd with
    | .tableHead alignments => readTable window containers alignments start nextLine
    | _ =>
      -- A backslash that no line follows is text.
      let closed := match lineEnd with
        | .lineBreak { start := position, kind := .hardBreak true, .. } =>
          Atom.addText atoms position (position + 1)
        | _ => atoms
      let paragraph : Block × Nat :=
        (.paragraph { atoms := closed.reverse, stop := nextLine, containers } false, nextLine)
      let (outer, isInside) := LineCursor.enterLine window nextLine containers
      let (cursor, missing) := outer.claim 4
      let isShallow := missing != 0
      match (if isShallow && isInside then underline? window cursor.position else none) with
      | some (level, stop) =>
        let (attributes, atoms) := underlinedHeading window start nextLine closed
        (.heading level attributes { atoms := atoms.reverse, stop, containers }, stop)
      | none =>
        let content := cursor.claimAll
        if (isShallow && endsParagraph window containers isInside cursor.position)
            || content.isAtEnd then
          paragraph
        else
          let continued := match lineEnd with
            | .lineBreak atom => atom :: atoms
            | _ => atoms
          readLines window containers start fuel content.position continued

/-- Read a paragraph, or what its lines turn out to be. -/
def readParagraph (window : Window) (containers : List Container) (start : Nat) : Block × Nat :=
  readLines window containers start (window.stop - start + 1) start []

/-! ## Blocks -/

/-- Read the definitions in front of a paragraph.  Answers with the draft and
either where the paragraph begins, or where the next block does. -/
def readDefinitions (window : Window) :
    Nat → Draft → LineCursor → Draft × (LineCursor ⊕ Nat)
  | 0, draft, cursor => (draft, .inl cursor)
  | fuel + 1, draft, cursor =>
    match definition? window draft.containers cursor.position with
    | none => (draft, .inl cursor)
    | some (definition, behind) =>
      let draft := { draft with definitions := Definition.insert draft.definitions definition }
      match window.blankRest? behind with
      | none => (draft.leaveList, .inr behind)
      | some nextLine =>
        let (outer, isInside) := LineCursor.enterLine window nextLine draft.containers
        let (line, missing) := outer.claim 4
        if missing != 0 && endsParagraph window draft.containers isInside line.position then
          (draft.leaveList, .inr nextLine)
        else
          readDefinitions window fuel draft line.claimAll

/-- Open the containers that begin on a line.  Answers with the draft and either
the rest of the line, or the next line, if an item has nothing on this one. -/
def openContainers (window : Window) : Nat → Draft → LineCursor → Draft × (LineCursor ⊕ Nat)
  | 0, draft, cursor => (draft, .inl cursor)
  | fuel + 1, draft, cursor =>
    let (inner, columns) := cursor.claimUpTo 4
    if 4 ≤ columns then
      (draft, .inl cursor)
    else
      match itemStart? inner columns with
      | some (mark, indent, content) =>
        let draft := (draft.continueList mark).enter (.item indent)
        match window.blankRest? content.position with
        | some nextLine => ({ draft with awaitsContent := true }, .inr nextLine)
        | none => openContainers window fuel draft content
      | none =>
        match inner.quoteMark? with
        | some content => openContainers window fuel (draft.leaveList.enter .quote) content
        | none => (draft, .inl cursor)

/-- Read a block that is not in a further container; the cursor is behind the
marks of the containers of its first line.  Answers with the offset behind it. -/
def readContent (window : Window) (draft : Draft) (cursor : LineCursor) : Draft × Nat :=
  let fuel := window.stop - cursor.position + 1
  let (inner, columns) := cursor.claimUpTo 4
  let start := inner.position
  let outside := draft.leaveList
  let containers := outside.containers
  let added (result : Block × Nat) : Draft × Nat := (outside.add result.1, result.2)
  if columns = 4 then
    let (content, stop, isBlank) :=
      readIndented window containers fuel start inner.pending false "" ""
    ({ outside.add (.code none content) with afterBlank := isBlank }, stop)
  else
    match htmlBlockEnd? window start with
    | some htmlEnd =>
      let (content, stop) :=
        readHtml window containers htmlEnd fuel start (max cursor.pending columns) ""
      added (.html content, stop)
    | none =>
      match thematicBreak? window start with
      | some stop => added (.thematicBreak, stop)
      | none =>
        match numberSignLevel? window start with
        | some level =>
          let behind := start + level
          match window.lineEnd? behind with
          | some stop => added (.heading level {} { atoms := [], stop, containers }, stop)
          | none => added (readHeading window containers level (window.skipBlanks behind))
        | none =>
          match openingFence? window start with
          | some (mark, count) =>
            let infoStart := window.skipBlanks (start + count)
            let stop := window.nextLine infoStart
            let infoStop := window.trimBack isAsciiBlank infoStart stop
            let info := unescape window false infoStart infoStop
            let (content, behind) :=
              readFenced window containers mark count columns fuel stop ""
            added (.code (some info) content, behind)
          | none =>
            match readDefinitions window fuel draft inner with
            | (draft, .inr next) => (draft, next)
            | (draft, .inl cursor) =>
              let outside := draft.leaveList
              let (block, stop) := readParagraph window outside.containers cursor.position
              (outside.add block, stop)

/-- Read the block that begins on the line at an offset.  Answers with the offset
behind what was read. -/
def readBlock (window : Window) (draft : Draft) (start : Nat) : Draft × Nat :=
  let (cursor, count) := (LineCursor.ofLine window start).enter draft.containers
  match openContainers window (window.stop - start + 1) (draft.closeTo count) cursor with
  | (draft, .inr nextLine) => (draft, nextLine)
  | (draft, .inl cursor) =>
    match window.blankRest? cursor.position with
    | some nextLine => (draft.noteBlank, nextLine)
    | none => readContent window draft cursor

/-- Read the blocks from an offset on. -/
def readBlocks (window : Window) : Nat → Draft → Nat → Draft
  | 0, draft, _ => draft
  | fuel + 1, draft, start =>
    if start < window.stop then
      let (draft, next) := readBlock window draft start
      readBlocks window fuel draft next
    else
      draft

/-- The document that a text is. -/
def Document.ofText (text : String) : Document :=
  let window := Window.whole text
  (readBlocks window (window.stop + 1) {} 0).document

end WikiPress.Markdown
