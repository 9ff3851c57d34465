import WikiPress.Markdown.Window

/-!
# Reading the indentation of a line

Indentation is counted in columns, and a tab reaches to the next column that is
a multiple of four.  A container may claim only part of the columns of a tab;
the cursor then keeps the others as pending columns, which the next reader gets
first.
-/

namespace WikiPress.Markdown

open Text

/-- A place in the indentation of a line. -/
structure LineCursor where
  window : Window
  position : Nat
  /-- Where the counting of columns begins: the start of the line, or the end of
  the last tab. -/
  columnZero : Nat
  /-- Columns of a tab that no reader has claimed yet. -/
  pending : Nat := 0

namespace LineCursor

/-- The cursor at the start of a line. -/
def ofLine (window : Window) (start : Nat) : LineCursor :=
  { window, position := start, columnZero := start }

/-- Columns that a tab at the cursor spans. -/
def tabWidth (cursor : LineCursor) : Nat :=
  4 - (cursor.position - cursor.columnZero) % 4

/-- Claim columns from the bytes of the line; the number that is missing comes
with the cursor. -/
def claimBytes (cursor : LineCursor) (columns : Nat) : LineCursor × Nat :=
  if 0 < columns then
    match cursor.window.byte? cursor.position with
    | some ' ' => claimBytes { cursor with position := cursor.position + 1 } (columns - 1)
    | some '\t' =>
      let width := cursor.tabWidth
      let claimed := min width columns
      claimBytes
        { cursor with
          position := cursor.position + 1
          columnZero := cursor.position + 1
          pending := width - claimed }
        (columns - claimed)
    | _ => (cursor, columns)
  else
    (cursor, columns)
termination_by columns
decreasing_by
  · omega
  · simp only [tabWidth]
    omega

/-- Claim columns, pending ones first; the number that is missing comes with the
cursor. -/
def claim (cursor : LineCursor) (columns : Nat) : LineCursor × Nat :=
  let fromPending := min cursor.pending columns
  claimBytes { cursor with pending := cursor.pending - fromPending } (columns - fromPending)

/-- Claim up to a number of columns; the number that was there comes with the
cursor. -/
def claimUpTo (cursor : LineCursor) (columns : Nat) : LineCursor × Nat :=
  let (cursor, missing) := cursor.claim columns
  (cursor, columns - missing)

/-- Pass over all spaces and tabs. -/
def claimAll (cursor : LineCursor) : LineCursor :=
  let blank (char : Char) : Bool := char == ' ' || char == '\t'
  { cursor with
    position := cursor.window.skipWhile blank cursor.position
    pending := 0 }

/-- Whether the line ends at the cursor. -/
def isAtEnd (cursor : LineCursor) : Bool :=
  (cursor.window.lineEnd? cursor.position).isSome

/-- Pass over one byte, if it is the given one. -/
def take? (cursor : LineCursor) (char : Char) : Option LineCursor :=
  if cursor.window.has cursor.position char then
    some { cursor with position := cursor.position + 1 }
  else
    none

end LineCursor

/-- What a line may be nested in. -/
inductive Container where
  | quote
  /-- A list with the last character of its markers and its first number. -/
  | list (marker : Char) (first : Nat)
  /-- A list item with the columns that its lines are indented by. -/
  | item (indent : Nat)
deriving DecidableEq, Repr, Inhabited

namespace LineCursor

/-- Pass over the mark of a block quote: `>` and a column behind it. -/
def quoteMark? (cursor : LineCursor) : Option LineCursor :=
  (cursor.take? '>').map fun cursor => (cursor.claim 1).1

/-- Enter a container that is already open.  A line belongs to a quote when its
mark follows at most three columns; it belongs to an item when it is indented
enough or ends before that. -/
def enterOne? (cursor : LineCursor) : Container → Option LineCursor
  | .quote => (cursor.claim 3).1.quoteMark?
  | .list _ _ => some cursor
  | .item indent =>
    let (inside, missing) := cursor.claim indent
    if missing = 0 || inside.isAtEnd then some inside else none

/-- Enter open containers, the outermost first, up to the first to which the line
does not belong; their number comes with the cursor. -/
def enter (cursor : LineCursor) : List Container → LineCursor × Nat
  | [] => (cursor, 0)
  | container :: containers =>
    match cursor.enterOne? container with
    | none => (cursor, 0)
    | some inside =>
      let (innermost, count) := inside.enter containers
      (innermost, count + 1)

/-- The cursor behind the marks of open containers at the start of a line, and
whether the line belongs to all of them. -/
def enterLine (window : Window) (start : Nat) (containers : List Container) : LineCursor × Bool :=
  let (cursor, count) := (ofLine window start).enter containers
  (cursor, count == containers.length)

/-- The offset behind the marks of open containers at the start of a line. -/
def afterMarks (window : Window) (start : Nat) (containers : List Container) : Nat :=
  (enterLine window start containers).1.position

end LineCursor

end WikiPress.Markdown
