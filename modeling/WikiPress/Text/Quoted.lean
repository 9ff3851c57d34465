import WikiPress.Text.Unicode
import WikiPress.Text.VisibleRanges

/-!
# Quoted text

Messages show a text of unknown content in quotes.  Quotes and backslashes inside
it, and all characters that could not be seen, are written as escapes.
-/

namespace WikiPress.Text

/-- The digits of a number in base sixteen, with small letters. -/
def hexText (number : Nat) : String :=
  String.ofList (Nat.toDigits 16 number)

/-- A character inside quotes. -/
def quotedChar (char : Char) : String :=
  if char == '"' then "\\\""
  else if char == '\\' then "\\\\"
  else if char == '\x00' then "\\0"
  else if char == '\t' then "\\t"
  else if char == '\n' then "\\n"
  else if char == '\r' then "\\r"
  else if inRanges visibleRanges char then char.toString
  else "\\u\x7b" ++ hexText char.toNat ++ "\x7d"

/-- A text in quotes. -/
def quoted (text : String) : String :=
  "\"" ++ String.join (text.toList.map quotedChar) ++ "\""

end WikiPress.Text
