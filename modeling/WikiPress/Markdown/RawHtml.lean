import WikiPress.Markdown.LineCursor

/-!
# Raw HTML in running text

A tag, comment, processing instruction, declaration or CDATA section that stands
in running text is passed on as it is.  A tag may spread over several lines; the
marks of the containers at the start of its later lines do not belong to it.
-/

namespace WikiPress.Markdown

open Text

/-- How far a tag has been read, and the container marks that were met inside
it, the last first. -/
structure TagScan where
  position : Nat
  marks : List Span := []

namespace TagScan

/-- Move on to an offset. -/
def goto (scan : TagScan) (position : Nat) : TagScan :=
  { scan with position }

/-- Start the next line.  `containers` is `none` where a tag has to stand on one
line. -/
def passLineEnd? (window : Window) (containers : Option (List Container)) (scan : TagScan)
    (nextLine : Nat) : Option TagScan :=
  containers.map fun containers =>
    let position := LineCursor.afterMarks window nextLine containers
    if nextLine < position then
      { position, marks := ⟨nextLine, position⟩ :: scan.marks }
    else
      scan.goto nextLine

/-- Pass over blanks and line ends. -/
def passSpace? (window : Window) (containers : Option (List Container)) :
    Nat → TagScan → Option TagScan
  | 0, scan => some scan
  | fuel + 1, scan =>
    if window.holds scan.position isLineBlank then
      passSpace? window containers fuel (scan.goto (scan.position + 1))
    else if window.holds scan.position isLineEnd then
      match window.lineEnd? scan.position with
      | none => some scan
      | some nextLine =>
        (scan.passLineEnd? window containers nextLine).bind (passSpace? window containers fuel)
    else
      some scan

/-- Pass over the rest of a quoted value and its closing quote. -/
def passQuoted? (window : Window) (containers : Option (List Container)) (quote : Char) :
    Nat → TagScan → Option TagScan
  | 0, _ => none
  | fuel + 1, scan =>
    match window.byte? scan.position with
    | none => none
    | some char =>
      if char = quote then
        some (scan.goto (scan.position + 1))
      else if isLineEnd char then
        match window.lineEnd? scan.position with
        | none => none
        | some nextLine =>
          (scan.passLineEnd? window containers nextLine).bind
            (passQuoted? window containers quote fuel)
      else
        passQuoted? window containers quote fuel (scan.goto (scan.position + 1))

/-- The bytes that end an unquoted value. -/
def endsUnquoted (char : Char) : Bool :=
  char == ' ' || char == '=' || char == '>' || char == '<' || char == '\x60' || isLineEnd char

/-- Pass over the value of an attribute. -/
def passValue? (window : Window) (containers : Option (List Container)) (scan : TagScan) :
    Option TagScan :=
  match window.byte? scan.position with
  | none => none
  | some char =>
    if char == '"' || char == '\'' then
      passQuoted? window containers char (window.stop - scan.position)
        (scan.goto (scan.position + 1))
    else if endsUnquoted char then
      none
    else
      let isPlain (char : Char) : Bool := !endsUnquoted char && char != '"' && char != '\''
      some (scan.goto (window.skipWhile isPlain scan.position))

/-- Whether a byte may begin the name of an attribute. -/
def startsAttribute (char : Char) : Bool :=
  isAsciiLetter char || char == '_' || char == ':'

/-- Whether a byte may continue the name of an attribute. -/
def continuesAttribute (char : Char) : Bool :=
  isAsciiAlphanumeric char || char == '_' || char == '.' || char == ':' || char == '-'

/-- Pass over an attribute and its value, if it has one. -/
def passAttribute? (window : Window) (containers : Option (List Container)) (scan : TagScan) :
    Option TagScan :=
  if window.holds scan.position startsAttribute then do
    let name := scan.goto (window.skipWhile continuesAttribute (scan.position + 1))
    let fuel := window.stop - scan.position + 1
    let behind ← passSpace? window containers fuel name
    if window.has behind.position '=' then
      let value ← passSpace? window containers fuel (behind.goto (behind.position + 1))
      passValue? window containers value
    else
      some name
  else
    none

/-- Pass over attributes up to the end of the tag; each has space in front. -/
def passAttributes? (window : Window) (containers : Option (List Container)) :
    Nat → TagScan → Option TagScan
  | 0, _ => none
  | fuel + 1, scan => do
    let behind ← passSpace? window containers (window.stop - scan.position + 1) scan
    match window.byte? behind.position with
    | none => none
    | some '/' => some behind
    | some '>' => some behind
    | some _ =>
      if behind.position = scan.position then
        none
      else
        let next ← passAttribute? window containers behind
        passAttributes? window containers fuel next

/-- Read a tag that starts at an offset. -/
def tag? (window : Window) (containers : Option (List Container)) (start : Nat) : Option TagScan :=
  let isClosing := window.has (start + 1) '/'
  let nameStart := if isClosing then start + 2 else start + 1
  if window.holds nameStart isAsciiLetter then do
    let isNameChar (char : Char) : Bool := isAsciiAlphanumeric char || char == '-'
    let name : TagScan := { position := window.skipWhile isNameChar nameStart }
    let attributes ←
      if isClosing then some name
      else passAttributes? window containers (window.stop - start) name
    let blank := window.skipBlanks attributes.position
    let slash := if isClosing then blank else window.skipOne '/' blank
    if window.has slash '>' then some (attributes.goto (slash + 1)) else none
  else
    none

/-- The text of a tag that starts at an offset, without container marks. -/
def text (window : Window) (start : Nat) (scan : TagScan) : String :=
  let (text, kept) := scan.marks.foldr
    (fun mark (text, kept) => (text ++ window.slice kept mark.start, mark.stop))
    ("", start)
  text ++ window.slice kept scan.position

end TagScan

/-- The offset behind a comment; `offset` is behind its `<!`. -/
def commentEnd? (window : Window) (offset : Nat) : Option Nat :=
  if window.startsWith offset ['-', '-'] then
    (window.find? ['-', '-', '>'] offset).map (· + 3)
  else
    none

/-- The offset behind a CDATA section; `offset` is behind its `<!`. -/
def sectionEnd? (window : Window) (offset : Nat) : Option Nat :=
  if window.startsWith offset "[CDATA[".toList then
    let close := window.skipWhile (· != ']') (offset + 7)
    let behind := window.skipWhile (· == ']') close
    if close < behind && window.has behind '>' then some (behind + 1) else none
  else
    none

/-- The offset behind a declaration; `offset` is behind its `<!`. -/
def declarationEnd? (window : Window) (offset : Nat) : Option Nat :=
  let name := window.skipWhile (fun char => 'A' ≤ char && char ≤ 'Z') offset
  let behind := window.skipWhile isAsciiBlank name
  if offset < name && name < behind then
    (window.find? ['>'] behind).map (· + 1)
  else
    none

/-- Raw HTML whose `<` is at `start` and whose next piece of text is at `next`:
its text and the offset behind it. -/
def rawHtml? (window : Window) (containers : List Container) (start next : Nat) :
    Option (String × Nat) :=
  let verbatim (stop : Nat) : String × Nat := (window.slice start stop, stop)
  match window.byte? next with
  | none => none
  | some '!' =>
    (commentEnd? window (next + 1) <|> sectionEnd? window (next + 1)
      <|> declarationEnd? window (next + 1)).map verbatim
  | some '?' => (window.find? ['?', '>'] (next + 1)).map fun close => verbatim (close + 2)
  | some _ =>
    (TagScan.tag? window (some containers) (next - 1)).map fun scan =>
      if scan.marks.isEmpty then verbatim scan.position
      else (scan.text window (next - 1), scan.position)

end WikiPress.Markdown
