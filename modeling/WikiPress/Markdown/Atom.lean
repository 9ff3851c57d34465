import WikiPress.Text.Unicode
import WikiPress.Markdown.BlockStart
import WikiPress.Markdown.Entity

/-!
# The atoms of running text

The lines of a paragraph, a heading or a table cell are first cut into atoms:
stretches of plain text, and marks that may turn out to be part of a code span,
of emphasis, of a link or of HTML.  What an atom becomes is decided when the
whole text is known.  A backslash that escapes a character belongs to no atom;
neither do blanks at the ends of a line and the marks of containers.
-/

namespace WikiPress.Markdown

open Text

/-- What an atom may become. -/
inductive Atom.Kind where
  | text
  /-- A character reference and the text that it stands for. -/
  | entity (value : String)
  /-- Equal marks of emphasis, and whether they may begin or end it. -/
  | run (mark : Char) (opens closes : Bool)
  /-- Backticks, and whether the first of them is escaped. -/
  | ticks (escaped : Bool)
  | angle
  | imageOpen
  | linkOpen
  /-- A closing bracket, and whether it may close a reference on its own. -/
  | linkClose (mayRefer : Bool)
  | softBreak
  /-- A line break, and whether a backslash makes it. -/
  | hardBreak (byBackslash : Bool)
deriving DecidableEq, Repr, Inhabited

/-- A stretch of running text. -/
structure Atom where
  start : Nat
  stop : Nat
  kind : Atom.Kind
deriving Repr, Inhabited

/-- Add plain text behind the atoms, which stand last first.  Text that continues
the text before it extends that atom. -/
def Atom.addText (atoms : List Atom) (start stop : Nat) : List Atom :=
  if start < stop then
    match atoms with
    | { start := first, stop := last, kind := .text } :: rest =>
      if last = start then { start := first, stop, kind := .text } :: rest
      else { start, stop, kind := .text } :: atoms
    | _ => { start, stop, kind := .text } :: atoms
  else
    atoms

/-! ## Runs of emphasis marks -/

/-- The character in front of an offset that is a boundary of characters. -/
def charBefore? (window : Window) (offset : Nat) : Option Char :=
  if offset = 0 then none else (String.Pos.Raw.mk offset).prev window.text |>.get? window.text

/-- Whether a pipe that ends a cell stands in front of an offset. -/
def followsPipe (window : Window) (offset : Nat) : Bool :=
  offset != 0 && window.has (offset - 1) '|' && !(2 ≤ offset && window.has (offset - 2) '\\')

/-- Whether a run of marks may begin emphasis.  The window is the whole text. -/
def opensEmphasis (window : Window) (mark : Char) (start stop : Nat) (inCell : Bool) : Bool :=
  match charAt? window.text stop, charBefore? window start with
  | none, _ => false
  | some next, none => !isWhiteSpace next
  | some next, some previous =>
    if isWhiteSpace next then false
    else if inCell && followsPipe window start then true
    else if inCell && next == '|' then false
    else
      (mark == '*' && !isPunctuation next) || (mark == '~' && 1 < stop - start)
        || isWhiteSpace previous || isPunctuation previous

/-- Whether a run of marks may end emphasis.  The window is the whole text. -/
def closesEmphasis (window : Window) (mark : Char) (start stop : Nat) (inCell : Bool) : Bool :=
  match charBefore? window start, charAt? window.text stop with
  | none, _ => false
  | some previous, none => !isWhiteSpace previous
  | some previous, some next =>
    if isWhiteSpace previous then false
    else if inCell && followsPipe window start then false
    else if inCell && next == '|' then true
    else
      ((mark == '*' || (mark == '~' && 1 < stop - start)) && !isPunctuation previous)
        || (mark == '~' && previous == '~') || isWhiteSpace next || isPunctuation next

/-! ## Lines -/

/-- Where a line stands: in a cell of a table, at the start of what may be a
table, or elsewhere. -/
inductive LineRole where
  | plain | first | cell
deriving DecidableEq, Repr, Inhabited

/-- What a line ends with. -/
inductive LineEnd where
  /-- The end of the text or of a cell. -/
  | nothing
  /-- A line break, as an atom. -/
  | lineBreak (atom : Atom)
  /-- The head of a table, with the alignments of its columns. -/
  | tableHead (alignments : List Alignment)
deriving Inhabited

/-- A line that is being read. -/
structure LineScan where
  /-- The atoms so far, the last first. -/
  atoms : List Atom
  /-- Where the plain text begins that has not become an atom yet. -/
  textStart : Nat
  pipes : Nat := 0
  lastPipe : Nat

namespace LineScan

/-- The atoms with the plain text before an offset. -/
def finish (scan : LineScan) (offset : Nat) : List Atom :=
  Atom.addText scan.atoms scan.textStart offset

/-- Add an atom, and the plain text before it. -/
def add (scan : LineScan) (start stop : Nat) (kind : Atom.Kind) : LineScan :=
  { scan with atoms := { start, stop, kind } :: scan.finish start, textStart := stop }

/-- The alignments and the end of the delimiter row on the next line, if it makes
this line the head of a table. -/
def tableHead? (scan : LineScan) (window : Window) (containers : List Container)
    (start nextLine : Nat) : Option (List Alignment × Nat) :=
  if scan.pipes = 0 then
    none
  else
    let (cursor, isInside) := LineCursor.enterLine window nextLine containers
    if isInside then
      (delimiterRow? window cursor.position).filter fun (alignments, _) =>
        alignments.length == cellCount window start scan.pipes scan.lastPipe
    else
      none

/-- End a line, whose end is at an offset in front of the next line. -/
def endLine (scan : LineScan) (window : Window) (containers : List Container) (role : LineRole)
    (start offset nextLine : Nat) : List Atom × Nat × LineEnd :=
  let broken (stop : Nat) (start : Nat) (kind : Atom.Kind) : List Atom × Nat × LineEnd :=
    (scan.finish stop, nextLine, .lineBreak { start, stop := nextLine, kind })
  let backslashes := offset - window.trimBack (· == '\\') 0 offset
  if backslashes % 2 = 1 && nextLine < window.stop then
    broken (offset - 1) (offset - 1) (.hardBreak true)
  else
    let head? := if role = .first then scan.tableHead? window containers start nextLine else none
    match head? with
    | some (alignments, stop) => (scan.atoms, stop, .tableHead alignments)
    | none =>
      let content := window.trimBack isLineBlank 0 offset
      if 2 ≤ offset - content then broken content content (.hardBreak false)
      else broken content offset .softBreak

/-- Read a byte of a line that has a meaning: the scan and the offset behind what
was read. -/
def step (scan : LineScan) (window : Window) (role : LineRole) (offset : Nat) (char : Char) :
    LineScan × Nat :=
  let inCell := role = .cell
  let ordinary : LineScan × Nat := (scan, offset + 1)
  let atom (stop : Nat) (kind : Atom.Kind) : LineScan × Nat := (scan.add offset stop kind, stop)
  if char = '\\' then
    if isEscape window offset then
      let scan := { scan with atoms := scan.finish offset, textStart := offset + 1 }
      if window.has (offset + 1) '\x60' then
        let stop := offset + 1 + window.repeats '\x60' (offset + 1)
        (scan.add (offset + 1) stop (.ticks true), stop)
      else if inCell && isEscapedPipe window offset then
        ({ scan with textStart := offset + 2 }, offset + 3)
      else
        (scan, offset + 2)
    else
      ordinary
  else if char = '*' || char = '_' || char = '~' then
    let stop := offset + window.repeats char offset
    let text := Window.whole window.text
    let opens := opensEmphasis text char offset stop inCell
    let closes := closesEmphasis text char offset stop inCell
    if (opens || closes) && (char != '~' || stop - offset ≤ 2) then
      atom stop (.run char opens closes)
    else
      (scan, stop)
  else if char = '\x60' then
    atom (offset + window.repeats char offset) (.ticks false)
  else if char = '<' then
    if window.has (offset + 1) '\\' then ordinary else atom (offset + 1) .angle
  else if char = '!' then
    if window.has (offset + 1) '[' then atom (offset + 2) .imageOpen else ordinary
  else if char = '[' then
    atom (offset + 1) .linkOpen
  else if char = ']' then
    atom (offset + 1) (.linkClose true)
  else if char = '&' then
    match entity? window offset with
    | some (stop, value) => atom stop (.entity value)
    | none => ordinary
  else if char = '|' && !(offset != 0 && window.has (offset - 1) '\\') then
    ({ scan with pipes := scan.pipes + 1, lastPipe := offset }, offset + 1)
  else
    ordinary

/-- Read the rest of a line. -/
def read (window : Window) (containers : List Container) (role : LineRole) (start : Nat) :
    Nat → LineScan → Nat → List Atom × Nat × LineEnd
  | 0, scan, offset => (scan.atoms, offset, .nothing)
  | fuel + 1, scan, offset =>
    let atEnd : List Atom × Nat × LineEnd :=
      (scan.finish (window.trimBack isLineBlank scan.textStart offset), offset, .nothing)
    match window.byte? offset with
    | none => atEnd
    | some char =>
      if isLineEnd char then
        if role = .cell then
          atEnd
        else
          match window.lineEnd? offset with
          | some nextLine => scan.endLine window containers role start offset nextLine
          | none => atEnd
      else if role = .cell && char = '|' && !(offset != 0 && window.has (offset - 1) '\\') then
        atEnd
      else
        let (scan, offset) := scan.step window role offset char
        read window containers role start fuel scan offset

end LineScan

/-- Read a line from an offset on.  Its atoms come behind the given ones, the last
first, with the offset behind the line and what the line ends with. -/
def readLine (window : Window) (containers : List Container) (role : LineRole)
    (atoms : List Atom) (start : Nat) : List Atom × Nat × LineEnd :=
  LineScan.read window containers role start (window.stop - start + 1)
    { atoms, textStart := start, lastPipe := start } start

end WikiPress.Markdown
