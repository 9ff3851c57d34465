import WikiPress.Yaml.Cursor

/-!
# YAML scalars

A scalar is written plainly, in quotes, or as a block of lines.  Line ends inside
plain and quoted scalars are folded: a single one is read as a space, and of
several the first is left out.  A reader answers with the value and the cursor
behind the scalar, or fails.
-/

namespace WikiPress.Yaml

/-- How a scalar is written. -/
inductive Style where
  | plain | quoted | literal | folded
deriving DecidableEq, Repr, Inhabited

/-- Blank space between two words of a scalar. -/
structure Gap where
  /-- Blanks on one line. -/
  blanks : String := ""
  /-- Whether a line ends in the gap. -/
  hasBreak : Bool := false
  /-- The first line end, unless it is escaped. -/
  firstBreak : String := ""
  /-- All further line ends. -/
  moreBreaks : String := ""

namespace Gap

/-- How line ends are read that follow each other. -/
def fold (firstBreak moreBreaks : String) : String :=
  if firstBreak.startsWith "\n" then
    if moreBreaks.isEmpty then " " else moreBreaks
  else
    firstBreak ++ moreBreaks

/-- How a gap is read. -/
def text (gap : Gap) : String :=
  if gap.hasBreak then fold gap.firstBreak gap.moreBreaks else gap.blanks

/-- Read blanks and line ends.  With `indent`, a tab on a further line in front of
that column is no blank. -/
def read? (indent : Option Nat) : Nat → Cursor → Gap → Option (Gap × Cursor)
  | 0, cursor, gap => some (gap, cursor)
  | fuel + 1, cursor, gap =>
    match cursor.char? with
    | none => some (gap, cursor)
    | some char =>
      if isBlank char then
        if gap.hasBreak && char == '\t' && indent.any (cursor.column < ·) then none
        else if gap.hasBreak then read? indent fuel cursor.next gap
        else read? indent fuel cursor.next { gap with blanks := gap.blanks.push char }
      else if isBreak char then
        let (lineEnd, behind) := cursor.takeBreak
        if gap.hasBreak then
          read? indent fuel behind { gap with moreBreaks := gap.moreBreaks ++ lineEnd }
        else
          read? indent fuel behind { gap with hasBreak := true, firstBreak := lineEnd }
      else
        some (gap, cursor)

end Gap

/-! ## Quoted scalars -/

/-- The character that a letter behind a backslash stands for. -/
def escape? : Char → Option Char
  | '0' => some '\x00'
  | 'a' => some '\x07'
  | 'b' => some '\x08'
  | 't' => some '\t'
  | '\t' => some '\t'
  | 'n' => some '\n'
  | 'v' => some '\x0b'
  | 'f' => some '\x0c'
  | 'r' => some '\r'
  | 'e' => some '\x1b'
  | ' ' => some ' '
  | '"' => some '"'
  | '/' => some '/'
  | '\\' => some '\\'
  | 'N' => some '\u0085'
  | '_' => some '\u00a0'
  | 'L' => some '\u2028'
  | 'P' => some '\u2029'
  | _ => none

/-- The number of hexadecimal digits behind a backslash and a letter. -/
def escapeLength? : Char → Option Nat
  | 'x' => some 2
  | 'u' => some 4
  | 'U' => some 8
  | _ => none

/-- Read an escape; the cursor is behind the backslash. -/
def readEscape? (cursor : Cursor) : Option (Char × Cursor) := do
  let letter ← cursor.char?
  match escapeLength? letter with
  | none => (escape? letter).map fun char => (char, cursor.next)
  | some length =>
    let digits := (cursor.rest.drop 1).take length
    if digits.length < length then
      none
    else
      let code ← digits.foldlM (fun code digit => (Text.hexValue? digit).map (16 * code + ·)) 0
      if valid : code.isValidChar then
        some (Char.ofNatAux code valid, cursor.skip (length + 1))
      else
        none

/-- Read the rest of a quoted scalar, and its closing quote. -/
def readQuoted? (quote : Char) : Nat → Cursor → String → Option (String × Cursor)
  | 0, _, _ => none
  | fuel + 1, cursor, value =>
    let isDouble := quote == '"'
    let gapAt? (cursor : Cursor) (gap : Gap) : Option (String × Cursor) := do
      let (gap, behind) ← gap.read? none (fuel + 1) cursor
      if behind.isAtSeparator then none
      else readQuoted? quote fuel behind (value ++ gap.text)
    match cursor.char? with
    | none => none
    | some char =>
      if cursor.isAtSeparator then
        none
      else if char == quote then
        if !isDouble && cursor.ahead? 1 == some quote then
          readQuoted? quote fuel (cursor.skip 2) (value.push quote)
        else
          some (value, cursor.next)
      else if isDouble && char == '\\' then
        if (cursor.ahead? 1).any isBreak then
          gapAt? cursor.next.takeBreak.2 { hasBreak := true }
        else
          match readEscape? cursor.next with
          | none => none
          | some (char, behind) => readQuoted? quote fuel behind (value.push char)
      else if isBlank char || isBreak char then
        gapAt? cursor {}
      else
        readQuoted? quote fuel cursor.next (value.push char)

/-- Read a quoted scalar; the cursor is at its opening quote. -/
def quotedScalar? (cursor : Cursor) : Option (String × Cursor) :=
  cursor.char?.bind fun quote =>
    readQuoted? quote (cursor.rest.length + 1) cursor.next ""

/-! ## Plain scalars -/

/-- The characters that end a plain scalar in a flow collection. -/
def isFlowIndicator (char : Char) : Bool :=
  char == ',' || char == '[' || char == ']' || char == '\x7b' || char == '\x7d'

/-- A plain scalar that has been read. -/
structure PlainScalar where
  value : String
  /-- Whether a line ends behind the scalar, so that a new line begins. -/
  endsLine : Bool
  cursor : Cursor

/-- Read the rest of a plain scalar, whose further lines begin at `indent` or
behind it.  `gap` is the blank space behind the value so far. -/
def readPlain? (inFlow : Bool) (indent : Nat) : Nat → Cursor → String → Gap → Option PlainScalar
  | 0, cursor, value, gap => some { value, endsLine := gap.hasBreak, cursor }
  | fuel + 1, cursor, value, gap =>
    let finish : PlainScalar := { value, endsLine := gap.hasBreak, cursor }
    let inGap := gap.hasBreak || !gap.blanks.isEmpty
    match cursor.char? with
    | none => some finish
    | some char =>
      if isBlank char || isBreak char then
        match Gap.read? (some indent) fuel cursor {} with
        | none => none
        | some (gap, behind) =>
          if !inFlow && behind.column < indent || behind.isAtSeparator || behind.has '#' then
            some { value, endsLine := gap.hasBreak, cursor := behind }
          else
            readPlain? inFlow indent fuel behind value gap
      else if !inGap && value.isEmpty && cursor.isAtSeparator then
        some finish
      else if inFlow && char == ':'
          && (cursor.ahead? 1).any fun next => isFlowIndicator next || next == '?' then
        none
      else if (char == ':' && cursor.endsWord 1) || (inFlow && isFlowIndicator char) then
        some finish
      else
        readPlain? inFlow indent fuel cursor.next ((value ++ gap.text).push char) {}

/-- Read a plain scalar. -/
def plainScalar? (inFlow : Bool) (indent : Nat) (cursor : Cursor) : Option PlainScalar :=
  readPlain? inFlow indent (cursor.rest.length + 1) cursor "" {}

/-! ## Block scalars -/

/-- What becomes of the line ends behind a block scalar. -/
inductive Chomping where
  | clip | strip | keep
deriving DecidableEq, Repr, Inhabited

/-- Read the marks behind the one that begins a block scalar: what becomes of the
last line ends, and how far the lines are indented, if that is said. -/
def blockHeader? (cursor : Cursor) : Option (Chomping × Option Nat × Cursor) :=
  let chomping (cursor : Cursor) : Option (Chomping × Cursor) :=
    if cursor.has '+' then some (.keep, cursor.next)
    else if cursor.has '-' then some (.strip, cursor.next)
    else none
  let increment (cursor : Cursor) : Option (Nat × Cursor) :=
    (cursor.char?.bind Text.digitValue?).map fun digit => (digit, cursor.next)
  let (header, behind) : (Chomping × Option Nat) × Cursor :=
    match chomping cursor with
    | some (chomping, behind) =>
      match increment behind with
      | some (digit, behind) => ((chomping, some digit), behind)
      | none => ((chomping, none), behind)
    | none =>
      match increment cursor with
      | some (digit, behind) =>
        match chomping behind with
        | some (chomping, behind) => ((chomping, some digit), behind)
        | none => ((.clip, some digit), behind)
      | none => ((.clip, none), cursor)
  let lineEnd := behind.skipComment
  if header.2 = some 0 || !lineEnd.isAtLineEnd then none
  else some (header.1, header.2, lineEnd.takeBreak.2)

/-- Read the empty lines in front of a line of a block scalar, and the indentation
of that line: the line ends, the deepest column that was reached, and the cursor.
Without an indentation to look for, all spaces are passed over. -/
def blockBreaks? (indent : Option Nat) :
    Nat → Cursor → String → Nat → Option (String × Nat × Cursor)
  | 0, _, _, _ => none
  | fuel + 1, cursor, breaks, deepest =>
    let inIndent := indent.all (cursor.column < ·)
    let deepest := max deepest cursor.column
    match cursor.char? with
    | none => some (breaks, deepest, cursor)
    | some char =>
      if inIndent && char == ' ' then blockBreaks? indent fuel cursor.next breaks deepest
      else if inIndent && char == '\t' then none
      else if isBreak char then
        let (lineEnd, behind) := cursor.takeBreak
        blockBreaks? indent fuel behind (breaks ++ lineEnd) deepest
      else
        some (breaks, deepest, cursor)

/-- A block scalar that is being read. -/
structure BlockScalar where
  value : String := ""
  /-- The end of the last line. -/
  lineEnd : String := ""
  /-- The empty lines behind that. -/
  breaks : String := ""
  /-- Whether the last line began with a blank. -/
  isIndented : Bool := false

/-- Read the lines of a block scalar. -/
def blockLines? (isLiteral : Bool) (indent : Nat) :
    Nat → Cursor → BlockScalar → Option (BlockScalar × Cursor)
  | 0, _, _ => none
  | fuel + 1, cursor, scalar =>
    if cursor.column != indent || cursor.char?.isNone then
      some (scalar, cursor)
    else do
      let isIndented := cursor.holds isBlank
      let joined :=
        if !isLiteral && scalar.lineEnd.startsWith "\n" && !scalar.isIndented && !isIndented then
          Gap.fold scalar.lineEnd scalar.breaks
        else
          scalar.lineEnd ++ scalar.breaks
      let (line, behind) := cursor.takeWhile (!isBreak ·)
      let (lineEnd, next) := behind.takeBreak
      let (breaks, _, start) ← blockBreaks? (some indent) (next.rest.length + 1) next "" 0
      blockLines? isLiteral indent fuel start {
        value := scalar.value ++ joined ++ String.ofList line
        lineEnd
        breaks
        isIndented }

/-- Read a block scalar; the cursor is at its mark, and `parent` is the column of
the collection around it, less than zero outside collections. -/
def blockScalar? (isLiteral : Bool) (parent : Int) (cursor : Cursor) :
    Option (String × Cursor) := do
  let (chomping, increment, start) ← blockHeader? cursor.next
  let given := increment.map fun increment => parent.toNat + increment
  let (breaks, deepest, content) ← blockBreaks? given (start.rest.length + 1) start "" 0
  let indent := given.getD (max deepest (max (parent + 1).toNat 1))
  let (scalar, behind) ← blockLines? isLiteral indent (content.rest.length + 1) content { breaks }
  let value := match chomping with
    | .strip => scalar.value
    | .clip => scalar.value ++ scalar.lineEnd
    | .keep => scalar.value ++ scalar.lineEnd ++ scalar.breaks
  some (value, behind)

end WikiPress.Yaml
