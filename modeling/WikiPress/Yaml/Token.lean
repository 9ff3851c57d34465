import WikiPress.Yaml.Scalar

/-!
# YAML tokens

The text of a YAML stream is cut into tokens.  Indentation turns into tokens that
begin and end block collections.  The key of a mapping is recognised only by the
colon behind it; until then it is remembered where its tokens began, and the
tokens that announce it are put in front of them.
-/

namespace WikiPress.Yaml

/-- A token of a YAML stream. -/
inductive Token where
  | versionDirective (major minor : Nat)
  | tagDirective (handle uri : String)
  | documentStart
  | documentEnd
  | blockSequenceStart
  | blockMappingStart
  | blockEnd
  | flowSequenceStart
  | flowSequenceEnd
  | flowMappingStart
  | flowMappingEnd
  | blockEntry
  | flowEntry
  | key
  | value
  | alias (name : String)
  | anchor (name : String)
  | tag (handle suffix : String)
  | scalar (value : String) (style : Style)
  | streamEnd
deriving DecidableEq, Repr, Inhabited

/-- A place where a key may have begun. -/
structure PossibleKey where
  /-- Whether nothing but a key can stand there. -/
  isRequired : Bool
  /-- The number of tokens in front of it. -/
  tokenCount : Nat
  index : Nat
  line : Nat
  column : Nat

/-- A stream that is being cut into tokens. -/
structure TokenReader where
  cursor : Cursor
  /-- The tokens, the last first. -/
  tokens : List Token := []
  /-- The column of the innermost block collection, less than zero outside. -/
  indent : Int := -1
  /-- The columns of the block collections around it, the innermost first. -/
  outerIndents : List Int := []
  /-- Whether a key may begin at the cursor. -/
  mayBeginKey : Bool := true
  /-- The possible key of the innermost flow collection, or outside of all. -/
  possibleKey : Option PossibleKey := none
  /-- Those of the flow collections around it, the innermost first. -/
  outerKeys : List (Option PossibleKey) := []

namespace TokenReader

/-- Whether the cursor is in a flow collection. -/
def inFlow (reader : TokenReader) : Bool :=
  !reader.outerKeys.isEmpty

/-- Add a token and move the cursor. -/
def emit (reader : TokenReader) (token : Token) (cursor : Cursor) : TokenReader :=
  { reader with tokens := token :: reader.tokens, cursor }

/-- Insert a token behind a number of tokens. -/
def insert (reader : TokenReader) (token : Token) (count : Nat) : TokenReader :=
  let later := reader.tokens.length - count
  { reader with tokens := reader.tokens.take later ++ token :: reader.tokens.drop later }

/-! ## Keys -/

/-- Give up a possible key; it is a failure if it is required. -/
def dropKey? (reader : TokenReader) : Option TokenReader :=
  if reader.possibleKey.any (·.isRequired) then none
  else some { reader with possibleKey := none }

/-- Remember that a key may begin at the cursor. -/
def saveKey? (reader : TokenReader) : Option TokenReader :=
  if reader.mayBeginKey then
    reader.dropKey?.map fun reader =>
      let cursor := reader.cursor
      { reader with
        possibleKey := some {
          isRequired := !reader.inFlow && reader.indent == (cursor.column : Int)
          tokenCount := reader.tokens.length
          index := cursor.index
          line := cursor.line
          column := cursor.column } }
  else
    some reader

/-- Give up a possible key that the cursor has left: a key stands on one line and
is not longer than 1024 characters. -/
def expireKey? (cursor : Cursor) : Option PossibleKey → Option (Option PossibleKey)
  | none => some none
  | some key =>
    if key.line < cursor.line || key.index + 1024 < cursor.index then
      if key.isRequired then none else some none
    else
      some (some key)

/-- Give up all possible keys that the cursor has left. -/
def expireKeys? (reader : TokenReader) : Option TokenReader := do
  let possibleKey ← expireKey? reader.cursor reader.possibleKey
  let outerKeys ← reader.outerKeys.mapM (expireKey? reader.cursor)
  some { reader with possibleKey, outerKeys }

/-! ## Indentation -/

/-- Begin a block collection at a column, if it is deeper than the innermost one.
Its token comes behind a number of tokens. -/
def indentTo (reader : TokenReader) (column : Nat) (token : Token) (count : Nat) : TokenReader :=
  if !reader.inFlow && reader.indent < (column : Int) then
    { reader with outerIndents := reader.indent :: reader.outerIndents, indent := column }.insert
      token count
  else
    reader

/-- End the block collections that are deeper than a column. -/
def unindentTo (reader : TokenReader) (column : Int) : TokenReader :=
  if reader.inFlow then
    reader
  else
    let closed := (reader.indent :: reader.outerIndents).takeWhile (column < ·)
    let left := (reader.indent :: reader.outerIndents).drop closed.length
    { reader with
      tokens := List.replicate closed.length .blockEnd ++ reader.tokens
      indent := left.headD (-1)
      outerIndents := left.drop 1 }

/-! ## Space -/

/-- Move to the next token, over blanks, comments and line ends.  A tab is no
blank where a key may begin. -/
def toNext : Nat → TokenReader → TokenReader
  | 0, reader => reader
  | fuel + 1, reader =>
    let cursor := reader.cursor
    let behindMark :=
      if cursor.column == 0 && cursor.has '\uFEFF' then cursor.next else cursor
    let isSpace (char : Char) : Bool :=
      char == ' ' || (char == '\t' && (reader.inFlow || !reader.mayBeginKey))
    let content := (behindMark.takeWhile isSpace).2
    let lineEnd := if content.has '#' then (content.takeWhile (!isBreak ·)).2 else content
    if lineEnd.holds isBreak then
      toNext fuel {
        reader with
        cursor := lineEnd.takeBreak.2
        mayBeginKey := reader.mayBeginKey || !reader.inFlow }
    else
      { reader with cursor := lineEnd }

/-! ## Tokens -/

/-- The characters that may stand in the URI of a tag. -/
def isUriChar (char : Char) : Bool :=
  isNameChar char || ";/?:@&=+$.%!~*'()".toList.contains char

/-- Read a part of a tag: characters of a URI, and bytes that are written as
hexadecimal digits behind a percent sign. -/
def readUri? (isVerbatim : Bool) : Nat → Cursor → List UInt8 → Option (String × Cursor)
  | 0, _, _ => none
  | fuel + 1, cursor, bytes =>
    let finish : Option (String × Cursor) :=
      (String.fromUTF8? (ByteArray.mk bytes.reverse.toArray)).map fun text => (text, cursor)
    match cursor.char? with
    | none => finish
    | some char =>
      if char == '%' then do
        let high ← (cursor.ahead? 1).bind Text.hexValue?
        let low ← (cursor.ahead? 2).bind Text.hexValue?
        readUri? isVerbatim fuel (cursor.skip 3) (UInt8.ofNat (16 * high + low) :: bytes)
      else if isUriChar char || (isVerbatim && (char == ',' || char == '[' || char == ']')) then
        readUri? isVerbatim fuel cursor.next (char.toString.toUTF8.toList.reverse ++ bytes)
      else
        finish

/-- Read the URI of a tag. -/
def uri? (isVerbatim : Bool) (cursor : Cursor) : Option (String × Cursor) :=
  readUri? isVerbatim (cursor.rest.length + 1) cursor []

/-- Read the handle of a tag: an exclamation mark, a name, and, perhaps, another
exclamation mark. -/
def tagHandle? (cursor : Cursor) : Option (String × Cursor) :=
  if cursor.has '!' then
    let (name, behind) := cursor.next.takeWhile isNameChar
    if behind.has '!' then some (String.ofList ('!' :: name ++ ['!']), behind.next)
    else some (String.ofList ('!' :: name), behind)
  else
    none

/-- Read a tag. -/
def tag? (inFlow : Bool) (cursor : Cursor) : Option (Token × Cursor) := do
  let (token, behind) ←
    if cursor.ahead? 1 == some '<' then do
      let (suffix, behind) ← uri? true (cursor.skip 2)
      if behind.has '>' && !suffix.isEmpty then some (Token.tag "" suffix, behind.next) else none
    else do
      let (handle, behind) ← tagHandle? cursor
      if 1 < handle.length && handle.endsWith "!" then do
        let (suffix, behind) ← uri? false behind
        if suffix.isEmpty then none else some (.tag handle suffix, behind)
      else do
        let (suffix, behind) ← uri? false behind
        let name := String.ofList (handle.toList.drop 1) ++ suffix
        if name.isEmpty then some (.tag "" "!", behind) else some (.tag "!" name, behind)
  if (inFlow && behind.has ',') || behind.endsWord 0 then some (token, behind) else none

/-- Read the name of an anchor or an alias; the cursor is at its mark. -/
def anchorName? (cursor : Cursor) : Option (String × Cursor) :=
  let (name, behind) := cursor.next.takeWhile isNameChar
  let isEnded := behind.endsWord 0 || behind.holds ("?:,]\x7d%@\x60".toList.contains ·)
  if name.isEmpty || !isEnded then none else some (String.ofList name, behind)

/-- Read the number of a version. -/
def versionNumber? (cursor : Cursor) : Option (Nat × Cursor) :=
  let (digits, behind) := cursor.takeWhile Text.isAsciiDigit
  if 9 < digits.length then none
  else (Text.decimal? digits).map fun number => (number, behind)

/-- Read a directive, and the rest of its line; the cursor is at its percent sign. -/
def directive? (cursor : Cursor) : Option (Token × Cursor) := do
  let (name, behind) := cursor.next.takeWhile isNameChar
  let content := (behind.takeWhile isBlank).2
  let (token, behind) ←
    if !behind.endsWord 0 then
      none
    else if name == "YAML".toList then do
      let (major, behind) ← versionNumber? content
      let (minor, behind) ← if behind.has '.' then versionNumber? behind.next else none
      some (Token.versionDirective major minor, behind)
    else if name == "TAG".toList then do
      let (handle, behind) ← tagHandle? content
      let uriStart := (behind.takeWhile isBlank).2
      let (uri, stop) ← if behind.holds isBlank then uri? true uriStart else none
      let isHandle := handle == "!" || handle.endsWith "!"
      if isHandle && !uri.isEmpty && stop.endsWord 0 then some (.tagDirective handle uri, stop)
      else none
    else
      none
  let lineEnd := behind.skipComment
  if lineEnd.isAtLineEnd then some (token, lineEnd.takeBreak.2) else none

/-- Begin a new part of the stream: no block collection and no key goes on. -/
def separate? (reader : TokenReader) : Option TokenReader :=
  (reader.unindentTo (-1)).dropKey?.map fun reader => { reader with mayBeginKey := false }

/-- Read the mark that opens a flow collection. -/
def openFlow? (reader : TokenReader) (token : Token) : Option TokenReader :=
  reader.saveKey?.map fun reader =>
    { reader with
      outerKeys := reader.possibleKey :: reader.outerKeys
      possibleKey := none
      mayBeginKey := true }.emit token reader.cursor.next

/-- Read the mark that closes a flow collection. -/
def closeFlow? (reader : TokenReader) (token : Token) : Option TokenReader :=
  reader.dropKey?.map fun reader =>
    let outer := match reader.outerKeys with
      | [] => reader
      | possibleKey :: outerKeys => { reader with possibleKey, outerKeys }
    { outer with mayBeginKey := false }.emit token reader.cursor.next

/-- Read the hyphen of a block sequence. -/
def blockItem? (reader : TokenReader) : Option TokenReader :=
  if !reader.inFlow && !reader.mayBeginKey then
    none
  else
    let indented :=
      reader.indentTo reader.cursor.column .blockSequenceStart reader.tokens.length
    indented.dropKey?.map fun reader =>
      { reader with mayBeginKey := true }.emit .blockEntry reader.cursor.next

/-- Read the question mark of a key. -/
def key? (reader : TokenReader) : Option TokenReader :=
  if !reader.inFlow && !reader.mayBeginKey then
    none
  else
    let indented :=
      reader.indentTo reader.cursor.column .blockMappingStart reader.tokens.length
    indented.dropKey?.map fun reader =>
      { reader with mayBeginKey := !reader.inFlow }.emit .key reader.cursor.next

/-- Read the colon of a value.  If a key may have begun before, it has. -/
def value? (reader : TokenReader) : Option TokenReader :=
  match reader.possibleKey with
  | some key =>
    let announced := reader.insert .key key.tokenCount
    let indented := announced.indentTo key.column .blockMappingStart key.tokenCount
    some ({ indented with possibleKey := none, mayBeginKey := false }.emit .value
      reader.cursor.next)
  | none =>
    if !reader.inFlow && !reader.mayBeginKey then
      none
    else
      let indented :=
        reader.indentTo reader.cursor.column .blockMappingStart reader.tokens.length
      some ({ indented with mayBeginKey := !reader.inFlow }.emit .value reader.cursor.next)

/-- Read a token that may begin a key. -/
def node? (reader : TokenReader) (read : Cursor → Option (Token × Cursor)) :
    Option TokenReader := do
  let saved ← reader.saveKey?
  let (token, behind) ← read reader.cursor
  some ({ saved with mayBeginKey := false }.emit token behind)

/-- Read a plain scalar.  Behind a line end, a key may begin. -/
def plain? (reader : TokenReader) : Option TokenReader := do
  let saved ← reader.saveKey?
  let scalar ← plainScalar? reader.inFlow (reader.indent + 1).toNat reader.cursor
  some ({ saved with mayBeginKey := scalar.endsLine }.emit (.scalar scalar.value .plain)
    scalar.cursor)

/-- Read a block scalar. -/
def block? (reader : TokenReader) (style : Style) : Option TokenReader := do
  let dropped ← reader.dropKey?
  let (value, behind) ← blockScalar? (style == .literal) reader.indent reader.cursor
  some ({ dropped with mayBeginKey := true }.emit (.scalar value style) behind)

/-- Whether a character begins no plain scalar. -/
def isIndicator (char : Char) : Bool :=
  "-?:,[]\x7b\x7d#&*!|>'\"%@\x60".toList.contains char

/-- Whether a plain scalar begins at the cursor. -/
def isAtPlain (reader : TokenReader) : Bool :=
  let cursor := reader.cursor
  cursor.holds (!isIndicator ·)
    || (cursor.has '-' && !(cursor.ahead? 1).any isBlank)
    || (!reader.inFlow && (cursor.has '?' || cursor.has ':') && !cursor.endsWord 1)

/-- Read the token at the cursor. -/
def token? (reader : TokenReader) (char : Char) : Option TokenReader :=
  let cursor := reader.cursor
  let isIndicated := reader.inFlow || cursor.endsWord 1
  if cursor.column == 0 && char == '%' then do
    let separated ← reader.separate?
    let (token, behind) ← directive? cursor
    some (separated.emit token behind)
  else if cursor.isAtSeparator then
    reader.separate?.map fun separated =>
      separated.emit (if char == '-' then .documentStart else .documentEnd) (cursor.skip 3)
  else if char == '[' then reader.openFlow? .flowSequenceStart
  else if char == '\x7b' then reader.openFlow? .flowMappingStart
  else if char == ']' then reader.closeFlow? .flowSequenceEnd
  else if char == '\x7d' then reader.closeFlow? .flowMappingEnd
  else if char == ',' then
    reader.dropKey?.map fun dropped =>
      { dropped with mayBeginKey := true }.emit .flowEntry cursor.next
  else if char == '-' && cursor.endsWord 1 then reader.blockItem?
  else if char == '?' && isIndicated then reader.key?
  else if char == ':' && isIndicated then reader.value?
  else if char == '*' then
    reader.node? fun cursor => (anchorName? cursor).map fun (name, behind) => (.alias name, behind)
  else if char == '&' then
    reader.node? fun cursor => (anchorName? cursor).map fun (name, behind) => (.anchor name, behind)
  else if char == '!' then reader.node? (tag? reader.inFlow)
  else if char == '|' && !reader.inFlow then reader.block? .literal
  else if char == '>' && !reader.inFlow then reader.block? .folded
  else if char == '\'' || char == '"' then
    reader.node? fun cursor =>
      (quotedScalar? cursor).map fun (value, behind) => (.scalar value .quoted, behind)
  else if reader.isAtPlain then reader.plain?
  else none

/-- Read the tokens up to the end of the stream. -/
def readAll? : Nat → TokenReader → Option (List Token)
  | 0, _ => none
  | fuel + 1, reader => do
    let expired ← (reader.toNext (reader.cursor.rest.length + 1)).expireKeys?
    let level := expired.unindentTo expired.cursor.column
    match level.cursor.char? with
    | none =>
      let ended ← (level.unindentTo (-1)).dropKey?
      some (.streamEnd :: ended.tokens).reverse
    | some char => do
      let next ← level.token? char
      readAll? fuel next

end TokenReader

/-- The tokens of a text; a byte order mark may begin it. -/
def Token.ofText? (text : String) : Option (List Token) :=
  let chars := text.toList
  if chars.all isAllowed then
    TokenReader.readAll? (chars.length + 2)
      { cursor := { rest := if chars.head? == some '\uFEFF' then chars.drop 1 else chars } }
  else
    none

end WikiPress.Yaml
