/-!
# JSON

Values are written as JSON over several lines: every item of an array and every
member of an object begins a line, two spaces further in than the brackets around
it.  Empty arrays and objects stay on one line.
-/

namespace WikiPress.Text

/-- A JSON value. -/
inductive Json where
  | text (content : String)
  | number (value : Nat)
  | array (items : List Json)
  /-- Members with their names, in the order in which they are written. -/
  | object (members : List (String × Json))
deriving Inhabited

namespace Json

/-- The digits of a character with a small number, behind the mark of an escape. -/
def controlEscape (char : Char) : String :=
  let digits := Nat.toDigits 16 char.toNat
  "\\u" ++ String.ofList (List.replicate (4 - digits.length) '0' ++ digits)

/-- A character inside quotes. -/
def quotedChar (char : Char) : String :=
  if char == '"' then "\\\""
  else if char == '\\' then "\\\\"
  else if char == '\n' then "\\n"
  else if char == '\r' then "\\r"
  else if char == '\t' then "\\t"
  else if char == '\x08' then "\\b"
  else if char == '\x0c' then "\\f"
  else if char < ' ' then controlEscape char
  else char.toString

/-- A text in quotes. -/
def quote (text : String) : String :=
  "\"" ++ String.join (text.toList.map quotedChar) ++ "\""

/-- The start of a line at a depth. -/
def indentation (depth : Nat) : String :=
  String.ofList (List.replicate (2 * depth) ' ')

/-- Lines between brackets; `lines` are one step further in than the brackets. -/
def bracketed (opening closing : String) (depth : Nat) (lines : List String) : String :=
  if lines.isEmpty then opening ++ closing
  else
    opening ++ "\n" ++ ",\n".intercalate (lines.map (indentation (depth + 1) ++ ·)) ++ "\n"
      ++ indentation depth ++ closing

mutual

/-- A value that stands at a depth. -/
def write (depth : Nat) : Json → String
  | text content => quote content
  | number value => toString value
  | array items => bracketed "[" "]" depth (writeItems (depth + 1) items)
  | object members => bracketed "\x7b" "\x7d" depth (writeMembers (depth + 1) members)

/-- Values that stand at a depth. -/
def writeItems (depth : Nat) : List Json → List String
  | [] => []
  | item :: items => write depth item :: writeItems depth items

/-- Members that stand at a depth. -/
def writeMembers (depth : Nat) : List (String × Json) → List String
  | [] => []
  | (name, value) :: members =>
    (quote name ++ ": " ++ write depth value) :: writeMembers depth members

end

/-- A value as a text of several lines. -/
def pretty (value : Json) : String :=
  value.write 0

end Json

end WikiPress.Text
