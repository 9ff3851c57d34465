/-!
# Classes of ASCII characters

The syntax that this library reads is made of ASCII characters.  These are the
classes that its grammars name; no character outside ASCII belongs to any of
them.  Classes of Unicode text live in `WikiPress.Text.Unicode`.
-/

namespace WikiPress.Text

/-- ASCII letters of either case. -/
def isAsciiLetter (char : Char) : Bool :=
  ('a' ≤ char && char ≤ 'z') || ('A' ≤ char && char ≤ 'Z')

/-- ASCII decimal digits. -/
def isAsciiDigit (char : Char) : Bool :=
  '0' ≤ char && char ≤ '9'

/-- ASCII letters and digits. -/
def isAsciiAlphanumeric (char : Char) : Bool :=
  isAsciiLetter char || isAsciiDigit char

/-- The blanks that may stand inside a line: tab, vertical tab, form feed and
space. -/
def isLineBlank (char : Char) : Bool :=
  char == ' ' || char == '\t' || char == '\x0b' || char == '\x0c'

/-- The characters that end a line. -/
def isLineEnd (char : Char) : Bool :=
  char == '\n' || char == '\r'

/-- Blanks and line ends. -/
def isAsciiBlank (char : Char) : Bool :=
  isLineBlank char || isLineEnd char

/-- ASCII punctuation: every printable ASCII character that is neither a letter
nor a digit nor the space. -/
def isAsciiPunctuation (char : Char) : Bool :=
  '!' ≤ char && char ≤ '~' && !isAsciiAlphanumeric char

/-- Lower case of an ASCII letter; every other character is kept. -/
def lowerAscii (char : Char) : Char :=
  if 'A' ≤ char && char ≤ 'Z' then Char.ofNat (char.toNat + 32) else char

/-- The value of a hexadecimal digit. -/
def hexValue? (char : Char) : Option Nat :=
  if isAsciiDigit char then some (char.toNat - '0'.toNat)
  else if 'a' ≤ char && char ≤ 'f' then some (char.toNat - 'a'.toNat + 10)
  else if 'A' ≤ char && char ≤ 'F' then some (char.toNat - 'A'.toNat + 10)
  else none

/-- The value of a decimal digit. -/
def digitValue? (char : Char) : Option Nat :=
  if isAsciiDigit char then some (char.toNat - '0'.toNat) else none

/-- The number written by a non-empty list of decimal digits. -/
def decimal? (chars : List Char) : Option Nat :=
  match chars with
  | [] => none
  | _ => chars.foldlM (fun value char => (digitValue? char).map (10 * value + ·)) 0

end WikiPress.Text
