import WikiPress.Markdown.References
import WikiPress.Markdown.Window

/-!
# Character references and backslash escapes

A reference `&name;`, `&#decimal;` or `&#xhex;` stands for the character that it
names, and a backslash in front of ASCII punctuation for that punctuation.  Link
targets, link titles and the info of a fenced block are written with both.
-/

namespace WikiPress.Markdown

open Text

/-- The character of a numeric reference; zero is replaced, and numbers that are
no character have none. -/
def characterOfNumber? (number : Nat) : Option Char :=
  if number = 0 then some '\uFFFD'
  else if valid : number.isValidChar then some (Char.ofNatAux number valid)
  else none

/-- The number that digits of a base write, at most `limit` of them; the offset
behind them comes with it. -/
def readNumber (window : Window) (base : Nat) (limit offset : Nat) (value : Nat := 0) : Nat × Nat :=
  match limit with
  | 0 => (value, offset)
  | limit + 1 =>
    let digit := (window.byte? offset).bind hexValue?
    match digit.filter (· < base) with
    | some digit => readNumber window base limit (offset + 1) (base * value + digit)
    | none => (value, offset)

/-- The reference at an offset, where an ampersand stands: the offset behind it
and the text that it stands for. -/
def entity? (window : Window) (offset : Nat) : Option (Nat × String) :=
  if window.has (offset + 1) '#' then
    let isHex := window.holds (offset + 2) (lowerAscii · == 'x')
    let start := if isHex then offset + 3 else offset + 2
    let (number, stop) :=
      if isHex then readNumber window 16 6 start else readNumber window 10 7 start
    if stop != start && window.has stop ';' then
      (characterOfNumber? number).map fun char => (stop + 1, char.toString)
    else
      none
  else
    let stop := window.skipWhile isAsciiAlphanumeric (offset + 1)
    if window.has stop ';' then
      (reference? (window.slice (offset + 1) stop)).map fun value => (stop + 1, value)
    else
      none

/-- Whether a backslash at an offset escapes the byte behind it. -/
def isEscape (window : Window) (offset : Nat) : Bool :=
  window.has offset '\\' && window.holds (offset + 1) isAsciiPunctuation

/-- Whether two backslashes and a pipe stand at an offset.  In a table the pipe is
part of the cell, and both backslashes serve to escape it. -/
def isEscapedPipe (window : Window) (offset : Nat) : Bool :=
  window.startsWith offset ['\\', '\\', '|']

/-- The text between two offsets without escapes, references and carriage
returns.  `kept` is where the text begins that has not been written yet. -/
def unescapeFrom (window : Window) (inTable : Bool) (kept offset : Nat) : String :=
  if inside : offset < window.stop then
    if inTable && isEscapedPipe window offset then
      window.slice kept offset ++ unescapeFrom window inTable (offset + 2) (offset + 3)
    else if isEscape window offset then
      window.slice kept offset ++ unescapeFrom window inTable (offset + 1) (offset + 2)
    else if window.has offset '\r' then
      window.slice kept offset ++ unescapeFrom window inTable (offset + 1) (offset + 1)
    else if window.has offset '&' then
      match entity? window offset with
      | some (stop, value) =>
        let next := max stop (offset + 1)
        window.slice kept offset ++ value ++ unescapeFrom window inTable next next
      | none => unescapeFrom window inTable kept (offset + 1)
    else
      unescapeFrom window inTable kept (offset + 1)
  else
    window.slice kept window.stop
termination_by window.stop - offset
decreasing_by all_goals omega

/-- The text between two offsets without escapes, references and carriage
returns. -/
def unescape (window : Window) (inTable : Bool) (start stop : Nat) : String :=
  unescapeFrom (window.before stop) inTable start start

end WikiPress.Markdown
