import WikiPress.Text.Ascii
import WikiPress.Text.Position

/-!
# Windows

A reader of Markdown looks at a text up to some end: the end of the text, of a
block, or of a code span.  A window is a text together with that end.  Its reads
are at byte offsets and have no answer at or behind the end.  The scans below
return the offset that they reach; none of them moves backwards.
-/

namespace WikiPress.Markdown

open Text

/-- A text that is read up to an end. -/
structure Window where
  text : String
  stop : Nat

namespace Window

/-- The window on a whole text. -/
def whole (text : String) : Window :=
  ⟨text, text.utf8ByteSize⟩

/-- The window on a text's part before an offset. -/
def before (window : Window) (stop : Nat) : Window :=
  { window with stop := min window.stop stop }

/-- The byte at an offset. -/
def byte? (window : Window) (offset : Nat) : Option Char :=
  if offset < window.stop then byteAt? window.text offset else none

/-- Whether there is a byte at an offset that passes a test. -/
def holds (window : Window) (offset : Nat) (test : Char → Bool) : Bool :=
  (window.byte? offset).any test

/-- Whether a certain byte stands at an offset. -/
def has (window : Window) (offset : Nat) (char : Char) : Bool :=
  window.byte? offset == some char

/-- The text between two offsets. -/
def slice (window : Window) (start stop : Nat) : String :=
  Text.slice window.text start stop

/-- The first offset from a given one on whose byte fails a test. -/
def skipWhile (window : Window) (test : Char → Bool) (offset : Nat) : Nat :=
  if offset < window.stop then
    if window.holds offset test then skipWhile window test (offset + 1) else offset
  else
    offset
termination_by window.stop - offset

theorem le_skipWhile (window : Window) (test : Char → Bool) (offset : Nat) :
    offset ≤ window.skipWhile test offset := by
  fun_induction skipWhile window test offset <;> omega

/-- The least offset, from `low` on, behind which all bytes before `high` pass a
test. -/
def trimBack (window : Window) (test : Char → Bool) (low : Nat) : Nat → Nat
  | 0 => 0
  | high + 1 =>
    if low ≤ high && window.holds high test then trimBack window test low high else high + 1

/-- The number of times that a byte is repeated from an offset on. -/
def repeats (window : Window) (char : Char) (offset : Nat) : Nat :=
  window.skipWhile (· == char) offset - offset

/-- Skip one byte, if it is the given one. -/
def skipOne (window : Window) (char : Char) (offset : Nat) : Nat :=
  if window.has offset char then offset + 1 else offset

/-- Skip blanks, but no line end. -/
def skipBlanks (window : Window) (offset : Nat) : Nat :=
  window.skipWhile isLineBlank offset

/-- The offset behind the line end at an offset.  The end of the window ends the
last line. -/
def lineEnd? (window : Window) (offset : Nat) : Option Nat :=
  match window.byte? offset with
  | none => some offset
  | some '\n' => some (offset + 1)
  | some '\r' => some (if window.has (offset + 1) '\n' then offset + 2 else offset + 1)
  | some _ => none

/-- The offset of the next line, when the rest of this one is blank. -/
def blankRest? (window : Window) (offset : Nat) : Option Nat :=
  window.lineEnd? (window.skipBlanks offset)

/-- Whether the rest of the line is blank. -/
def isBlankRest (window : Window) (offset : Nat) : Bool :=
  (window.blankRest? offset).isSome

/-- The offset behind the next newline, or the end of the window. -/
def nextLine (window : Window) (offset : Nat) : Nat :=
  let newline := window.skipWhile (· != '\n') offset
  if window.has newline '\n' then newline + 1 else newline

/-- Whether the given bytes stand at an offset. -/
def startsWith (window : Window) (offset : Nat) : List Char → Bool
  | [] => true
  | char :: chars => window.has offset char && startsWith window (offset + 1) chars

/-- Whether the given small letters stand at an offset, in either case. -/
def startsWithWord (window : Window) (offset : Nat) : List Char → Bool
  | [] => true
  | char :: chars =>
    window.holds offset (lowerAscii · == char) && startsWithWord window (offset + 1) chars

/-- The first offset, from a given one on, at which the given bytes stand. -/
def find? (window : Window) (chars : List Char) (offset : Nat) : Option Nat :=
  if offset < window.stop then
    if window.startsWith offset chars then some offset else find? window chars (offset + 1)
  else
    none
termination_by window.stop - offset

end Window

end WikiPress.Markdown
