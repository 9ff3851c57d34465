import WikiPress.Text.Ascii

/-!
# Reading YAML characters

A YAML text is read character by character, with the line and the column in view,
because indentation gives it its structure.  This file supplies the classes of
characters and the cursor that all readers of YAML move.
-/

namespace WikiPress.Yaml

/-- Whether a character may occur in a text. -/
def isAllowed (char : Char) : Bool :=
  let code := char.toNat
  code == 9 || code == 10 || code == 13 || (32 ≤ code && code ≤ 126) || code == 133
    || (160 ≤ code && code ≤ 0xFFFD) || 0x10000 ≤ code

/-- Spaces and tabs. -/
def isBlank (char : Char) : Bool :=
  char == ' ' || char == '\t'

/-- The characters that end a line. -/
def isBreak (char : Char) : Bool :=
  char == '\n' || char == '\r' || char == '\u0085' || char == '\u2028' || char == '\u2029'

/-- Letters, digits, hyphens and underscores, of which names are made. -/
def isNameChar (char : Char) : Bool :=
  Text.isAsciiAlphanumeric char || char == '_' || char == '-'

/-- A place in a text. -/
structure Cursor where
  rest : List Char
  index : Nat := 0
  line : Nat := 0
  column : Nat := 0

namespace Cursor

/-- The character some places on. -/
def ahead? (cursor : Cursor) (distance : Nat) : Option Char :=
  cursor.rest[distance]?

/-- The character at the cursor. -/
def char? (cursor : Cursor) : Option Char :=
  cursor.rest.head?

/-- Whether a character is at the cursor. -/
def has (cursor : Cursor) (char : Char) : Bool :=
  cursor.char? == some char

/-- Whether the character at the cursor passes a test. -/
def holds (cursor : Cursor) (test : Char → Bool) : Bool :=
  cursor.char?.any test

/-- Whether a blank, a line end or the end of the text is some places on. -/
def endsWord (cursor : Cursor) (distance : Nat) : Bool :=
  (cursor.ahead? distance).all fun char => isBlank char || isBreak char

/-- Whether the line or the text ends at the cursor. -/
def isAtLineEnd (cursor : Cursor) : Bool :=
  cursor.char?.all isBreak

/-- Move over a character inside a line. -/
def next (cursor : Cursor) : Cursor :=
  match cursor.rest with
  | [] => cursor
  | _ :: rest => { cursor with rest, index := cursor.index + 1, column := cursor.column + 1 }

/-- Move over a number of characters inside a line. -/
def skip (cursor : Cursor) : Nat → Cursor
  | 0 => cursor
  | count + 1 => cursor.next.skip count

/-- Move over a line end, which is read as the text that comes with the cursor. -/
def takeBreak (cursor : Cursor) : String × Cursor :=
  let behind (rest : List Char) (length : Nat) : Cursor :=
    { rest, index := cursor.index + length, line := cursor.line + 1, column := 0 }
  match cursor.rest with
  | '\r' :: '\n' :: rest => ("\n", behind rest 2)
  | char :: rest =>
    if char == '\n' || char == '\r' || char == '\u0085' then ("\n", behind rest 1)
    else if isBreak char then (char.toString, behind rest 1)
    else ("", cursor)
  | [] => ("", cursor)

/-- Move over characters inside a line that pass a test; they come with the cursor. -/
def takeWhile (cursor : Cursor) (test : Char → Bool) : List Char × Cursor :=
  let taken := cursor.rest.takeWhile test
  (taken, cursor.skip taken.length)

/-- Move over blanks and a comment to the end of the line. -/
def skipComment (cursor : Cursor) : Cursor :=
  let behind := (cursor.takeWhile isBlank).2
  if behind.has '#' then (behind.takeWhile (!isBreak ·)).2 else behind

/-- Whether a line begins at the cursor that separates documents. -/
def isAtSeparator (cursor : Cursor) : Bool :=
  cursor.column == 0
    && (cursor.rest.take 3 == ['-', '-', '-'] || cursor.rest.take 3 == ['.', '.', '.'])
    && cursor.endsWord 3

end Cursor

end WikiPress.Yaml
