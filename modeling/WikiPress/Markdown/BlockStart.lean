import WikiPress.Markdown.LineCursor
import WikiPress.Markdown.RawHtml

/-!
# How blocks begin

Each block but the paragraph is recognised by the way in which its first line
begins.  The scans of this file are at an offset behind the indentation of that
line; those that succeed answer with what the block needs to know.  The last one
says which of these starts also end a paragraph.
-/

namespace WikiPress.Markdown

open Text

/-- The offset behind a thematic break: a line of three or more equal marks. -/
def thematicBreak? (window : Window) (offset : Nat) : Option Nat := do
  let mark ← window.byte? offset
  if mark == '*' || mark == '-' || mark == '_' then
    let isFiller (char : Char) : Bool := char == mark || char == ' ' || char == '\t'
    let stop := window.skipWhile isFiller offset
    let marks := (List.range (stop - offset)).countP fun index => window.has (offset + index) mark
    if 3 ≤ marks then window.lineEnd? stop else none
  else
    none

/-- The level of a heading that begins with number signs. -/
def numberSignLevel? (window : Window) (offset : Nat) : Option Nat :=
  let level := window.repeats '#' offset
  if 1 ≤ level && level ≤ 6 && ((window.byte? (offset + level)).all isAsciiBlank) then
    some level
  else
    none

/-- The level of a heading by its underline, and the offset behind that. -/
def underline? (window : Window) (offset : Nat) : Option (Nat × Nat) :=
  let line (mark : Char) (level : Nat) : Option (Nat × Nat) :=
    (window.blankRest? (offset + window.repeats mark offset)).map fun stop => (level, stop)
  match window.byte? offset with
  | some '=' => line '=' 1
  | some '-' => line '-' 2
  | _ => none

/-- The marks that open a fenced block: their character and their number. -/
def openingFence? (window : Window) (offset : Nat) : Option (Char × Nat) := do
  let mark ← window.byte? offset
  if mark == '\x60' || mark == '~' then
    let count := window.repeats mark offset
    let stop := window.nextLine (offset + count)
    let hasMark := mark == '\x60' && window.skipWhile (· != '\x60') (offset + count) < stop
    if 3 ≤ count && !hasMark then some (mark, count) else none
  else
    none

/-- The end of the line of marks that closes a fenced block.  The end of the text
closes it as well. -/
def closingFence? (window : Window) (mark : Char) (count offset : Nat) : Option Nat :=
  if (window.byte? offset).isNone then
    some offset
  else
    let stop := window.skipWhile (· == mark) offset
    let behind := window.skipWhile (· == ' ') stop
    if count ≤ stop - offset && (window.lineEnd? behind).isSome then some behind else none

/-! ## Lists -/

/-- The mark of a list item: the last character of the mark, its number, and the
offset behind it.  Bullets have the number zero. -/
structure ListMark where
  mark : Char
  number : Nat
  stop : Nat

/-- Whether a list mark is a bullet. -/
def ListMark.isBullet (mark : ListMark) : Bool :=
  mark.mark == '*' || mark.mark == '-' || mark.mark == '+'

/-- The list mark at an offset, if blank space or the end of the line follows it. -/
def listMark? (window : Window) (offset : Nat) : Option ListMark := do
  let first ← window.byte? offset
  let mark ←
    if first == '*' || first == '-' || first == '+' then
      some { mark := first, number := 0, stop := offset + 1 : ListMark }
    else
      let stop := window.skipWhile isAsciiDigit offset
      let mark ← window.byte? stop
      if offset < stop && stop - offset ≤ 9 && (mark == '.' || mark == ')') then do
        let number ← decimal? (window.slice offset stop).toList
        some { mark, number, stop := stop + 1 }
      else
        none
  let isSeparate :=
    window.has mark.stop ' ' || window.has mark.stop '\t' || (window.lineEnd? mark.stop).isSome
  if isSeparate then some mark else none

/-- Whether this line and the next one are blank from an offset on. -/
def isBlankTwice (window : Window) (offset : Nat) : Bool :=
  match window.blankRest? offset with
  | none => false
  | some nextLine => window.isBlankRest nextLine

/-- The list mark under a cursor that is behind `indent` columns, with the indent
of the item's lines and the cursor at the item's content. -/
def itemStart? (cursor : LineCursor) (indent : Nat) : Option (ListMark × Nat × LineCursor) := do
  let mark ← listMark? cursor.window cursor.position
  if mark.isBullet && (thematicBreak? cursor.window cursor.position).isSome then
    none
  else
    let width := mark.stop - cursor.position + 1
    let behind := (({ cursor with position := mark.stop } : LineCursor).claim 1).1
    if cursor.window.isBlankRest behind.position then
      some (mark, indent + width, behind)
    else
      let (content, columns) := behind.claimUpTo 4
      if columns < 4 then some (mark, indent + width + columns, content)
      else some (mark, indent + width, behind)

/-! ## HTML blocks -/

/-- How an HTML block ends: with a line that holds certain bytes, or in front of a
blank line. -/
inductive HtmlEnd where
  | line (closing : List Char)
  | blank
deriving DecidableEq, Repr, Inhabited

/-- The tags whose content is not Markdown. -/
def verbatimTags : List String := ["pre", "style", "script", "textarea"]

/-- The tags that start an HTML block wherever they stand. -/
def blockTags : List String := [
  "address", "article", "aside", "base", "basefont", "blockquote", "body", "caption", "center",
  "col", "colgroup", "dd", "details", "dialog", "dir", "div", "dl", "dt", "fieldset",
  "figcaption", "figure", "footer", "form", "frame", "frameset", "h1", "h2", "h3", "h4", "h5",
  "h6", "head", "header", "hr", "html", "iframe", "legend", "li", "link", "main", "menu",
  "menuitem", "nav", "noframes", "ol", "optgroup", "option", "p", "param", "search", "section",
  "summary", "table", "tbody", "td", "tfoot", "th", "thead", "title", "tr", "track", "ul"]

/-- Whether a verbatim tag stands behind a `<`. -/
def isVerbatimTag (window : Window) (offset : Nat) (tag : String) : Bool :=
  let stop := offset + tag.utf8ByteSize
  window.startsWithWord offset tag.toList
    && (window.byte? stop).all fun char => isAsciiBlank char || char == '>'

/-- The end of an HTML block that does not end at a blank line; `offset` is behind
its `<`. -/
def htmlEndLine? (window : Window) (offset : Nat) : Option HtmlEnd :=
  match verbatimTags.find? (isVerbatimTag window offset) with
  | some tag => some (.line ("</" ++ tag ++ ">").toList)
  | none =>
    if window.startsWith offset "!--".toList then some (.line "-->".toList)
    else if window.startsWith offset "?".toList then some (.line "?>".toList)
    else if window.startsWith offset "![CDATA[".toList then some (.line "]]>".toList)
    else if window.has offset '!'
        && window.holds (offset + 1) (fun char => 'A' ≤ char && char ≤ 'Z')
    then some (.line ">".toList)
    else none

/-- Whether a block tag stands behind a `<`. -/
def isBlockTag (window : Window) (offset : Nat) : Bool :=
  let start := window.skipOne '/' offset
  let stop := window.skipWhile isAsciiAlphanumeric start
  let name := String.ofList ((window.slice start stop).toList.map lowerAscii)
  blockTags.contains name
    && ((window.byte? stop).all
        (fun char => char == ' ' || char == '\t' || char == '>' || isLineEnd char)
      || window.startsWith stop ['/', '>'])

/-- Whether a complete tag fills the line; `offset` is at its `<`. -/
def isTagLine (window : Window) (offset : Nat) : Bool :=
  match TagScan.tag? window none offset with
  | none => false
  | some scan => window.isBlankRest scan.position

/-- How the HTML block ends that an offset starts. -/
def htmlBlockEnd? (window : Window) (offset : Nat) : Option HtmlEnd :=
  if window.has offset '<' then
    match htmlEndLine? window (offset + 1) with
    | some htmlEnd => some htmlEnd
    | none =>
      if isBlockTag window (offset + 1) || isTagLine window offset then some .blank else none
  else
    none

/-! ## Tables -/

/-- How the cells of a column are aligned. -/
inductive Alignment where
  | none | left | center | right
deriving DecidableEq, Repr, Inhabited

/-- What has been read of the row that delimits the head of a table. -/
structure DelimiterScan where
  /-- The alignments of the columns that are complete, the last first. -/
  columns : List Alignment := []
  current : Alignment := .none
  isColumnStart : Bool := true
  hasPipe : Bool := false
  hasHyphen : Bool := false
  columnHasHyphen : Bool := false

/-- Read one byte of a delimiter row. -/
def DelimiterScan.step? (scan : DelimiterScan) : Char → Option DelimiterScan
  | ' ' => some scan
  | ':' =>
    let current := match scan.isColumnStart, scan.current with
      | true, .none => Alignment.left
      | false, .left => .center
      | false, .none => .right
      | _, other => other
    some { scan with current, isColumnStart := false }
  | '-' => some { scan with isColumnStart := false, hasHyphen := true, columnHasHyphen := true }
  | '|' =>
    if scan.columnHasHyphen then
      some { scan with
        columns := scan.current :: scan.columns
        current := .none
        isColumnStart := true
        hasPipe := true
        columnHasHyphen := false }
    else
      none
  | _ => none

/-- Read a delimiter row up to the end of its line. -/
def DelimiterScan.read? (window : Window) : Nat → Nat → DelimiterScan → Option (DelimiterScan × Nat)
  | 0, _, _ => none
  | fuel + 1, offset, scan =>
    match window.lineEnd? offset with
    | some nextLine => some (scan, nextLine)
    | none => do
      let char ← window.byte? offset
      let scan ← scan.step? char
      read? window fuel (offset + 1) scan

/-- The alignments that a delimiter row gives, and the offset behind it. -/
def delimiterRow? (window : Window) (offset : Nat) : Option (List Alignment × Nat) := do
  let (content, columns) := (LineCursor.ofLine window offset).claimUpTo 4
  if 3 < columns || (window.byte? content.position).isNone then
    none
  else
    let hasPipe := window.has content.position '|'
    let start := window.skipOne '|' content.position
    let (scan, stop) ← DelimiterScan.read? window (window.stop - offset + 1) start { hasPipe }
    let alignments := if scan.isColumnStart then scan.columns else scan.current :: scan.columns
    if scan.hasPipe && scan.hasHyphen then some (alignments.reverse, stop) else none

/-- The number of cells in a row with a number of pipes.  A pipe at the start of
the row or at its end begins or ends no further cell. -/
def cellCount (window : Window) (start pipes lastPipe : Nat) : Nat :=
  let inner := if window.has (window.skipBlanks start) '|' then pipes - 1 else pipes
  if window.isBlankRest (lastPipe + 1) then inner else inner + 1

/-- The number of pipes of a line that no backslash precedes, and the offset of
the last. -/
def countPipes (window : Window) : Nat → Nat → Bool → Nat × Nat → Nat × Nat
  | 0, _, _, found => found
  | fuel + 1, offset, escaped, (pipes, last) =>
    match window.byte? offset with
    | none => (pipes, last)
    | some char =>
      if isLineEnd char then (pipes, last)
      else if char = '|' && !escaped then
        countPipes window fuel (offset + 1) false (pipes + 1, offset)
      else
        countPipes window fuel (offset + 1) (char == '\\') (pipes, last)

/-- Whether a table starts at an offset, with a pipe. -/
def isTableStart (window : Window) (containers : List Container) (offset : Nat) : Bool :=
  if window.has offset '|' then
    let (pipes, lastPipe) := countPipes window (window.stop - offset) offset false (0, offset)
    let stop := window.skipWhile (!isLineEnd ·) offset
    match window.byte? stop, window.lineEnd? stop with
    | some _, some nextLine =>
      let (cursor, isInside) := LineCursor.enterLine window nextLine containers
      isInside && match delimiterRow? window cursor.position with
        | none => false
        | some (alignments, _) => alignments.length == cellCount window offset pipes lastPipe
    | _, _ => false
  else
    false

/-! ## The end of a paragraph -/

/-- Whether a line may not continue a paragraph or a table, tables apart.
`isInside` tells whether the line belongs to the containers of the paragraph; if
it does not, or if a table is open, any list item is an end. -/
def endsLines (window : Window) (isInside inTable : Bool) (offset : Nat) : Bool :=
  (window.lineEnd? offset).isSome
    || (thematicBreak? window offset).isSome
    || (numberSignLevel? window offset).isSome
    || (openingFence? window offset).isSome
    || window.has offset '>'
    || (match listMark? window offset with
      | none => false
      | some mark =>
        !isInside || inTable
          || ((mark.isBullet || mark.number == 1) && !isBlankTwice window mark.stop))
    || (window.has offset '<'
      && ((htmlEndLine? window (offset + 1)).isSome || isBlockTag window (offset + 1)))

/-- Whether a line ends the paragraph before it. -/
def endsParagraph (window : Window) (containers : List Container) (isInside : Bool) (offset : Nat) :
    Bool :=
  endsLines window isInside false offset || isTableStart window containers offset

end WikiPress.Markdown
