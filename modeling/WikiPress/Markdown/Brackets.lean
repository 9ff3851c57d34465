import WikiPress.Markdown.Autolink
import WikiPress.Markdown.Block
import WikiPress.Markdown.Phrase

/-!
# Code spans, raw HTML and links

The atoms of running text become phrases from left to right.  Code spans, raw
HTML and links in angle brackets take the atoms that they cover.  An opening
bracket is kept on a stack; a closing one makes a link of what stands between it
and the last opening one, if a target, a label or nothing follows that gives the
link its meaning, and is text otherwise.  A link holds no other link.
-/

namespace WikiPress.Markdown

open Text

/-- An opening bracket that has not been closed. -/
structure OpenBracket where
  start : Nat
  stop : Nat
  isImage : Bool
  /-- Whether a link has been read behind the bracket, so that it opens none. -/
  isDisabled : Bool := false
  /-- The phrases in front of the bracket, the last first. -/
  before : List Phrase

/-- The phrases up to some atom. -/
structure Phrasing where
  /-- The phrases behind the last open bracket, the last first. -/
  phrases : List Phrase := []
  /-- The open brackets, the last first. -/
  brackets : List OpenBracket := []

/-- Where running text stands. -/
structure ProseContext where
  /-- The text up to the end of the block. -/
  window : Window
  containers : List Container
  inTable : Bool
  definitions : List Definition

namespace Phrasing

/-- Add a phrase. -/
def add (phrasing : Phrasing) (phrase : Phrase) : Phrasing :=
  { phrasing with phrases := phrase :: phrasing.phrases }

/-- Add an event as a phrase. -/
def addEvent (phrasing : Phrasing) (start stop : Nat) (kind : InlineEvent.Kind) : Phrasing :=
  phrasing.add (.plain { span := ⟨start, stop⟩, kind })

/-- Add an atom as the text that it is written with. -/
def addText (phrasing : Phrasing) (window : Window) (start stop : Nat) : Phrasing :=
  phrasing.addEvent start stop (.text (window.slice start stop))

/-- Open a bracket. -/
def openBracket (phrasing : Phrasing) (atom : Atom) (isImage : Bool) : Phrasing :=
  let bracket : OpenBracket :=
    { start := atom.start, stop := atom.stop, isImage, before := phrasing.phrases }
  { phrases := [], brackets := bracket :: phrasing.brackets }

/-- The last open bracket is text. -/
def dropBracket (phrasing : Phrasing) (window : Window) : Phrasing :=
  match phrasing.brackets with
  | [] => phrasing
  | bracket :: brackets =>
    let text : Phrase := .plain {
      span := ⟨bracket.start, bracket.stop⟩
      kind := .text (window.slice bracket.start bracket.stop) }
    { phrases := phrasing.phrases ++ text :: bracket.before, brackets }

/-- What stands behind the last open bracket becomes a link or an image, and no
earlier bracket opens a link any more if it is a link. -/
def closeBracket (phrasing : Phrasing) (bracket : OpenBracket) (brackets : List OpenBracket)
    (stop : Nat) (target title : String) : Phrasing :=
  let element : Element := if bracket.isImage then .image target title else .link target title
  let linked : Phrase :=
    .linked ⟨bracket.start, stop⟩ element (Phrase.settle phrasing.phrases.reverse)
  let disable (other : OpenBracket) : OpenBracket :=
    { other with isDisabled := other.isDisabled || !other.isImage }
  { phrases := linked :: bracket.before
    brackets := if bracket.isImage then brackets else brackets.map disable }

/-- The phrases, when open brackets are text. -/
def finish (phrasing : Phrasing) (window : Window) : List Phrase :=
  (phrasing.brackets.foldl (fun phrasing _ => phrasing.dropBracket window) phrasing).phrases.reverse

end Phrasing

/-! ## Skipping atoms -/

/-- The atoms behind those that end at or before an offset. -/
def atomsEndingAfter (stop : Nat) (atoms : List Atom) : List Atom :=
  atoms.dropWhile (·.stop ≤ stop)

/-- The atoms behind an offset; one that the offset divides begins there. -/
def atomsFrom (stop : Nat) (atoms : List Atom) : List Atom :=
  match atomsEndingAfter stop atoms with
  | [] => []
  | atom :: rest => { atom with start := max atom.start stop } :: rest

/-! ## Code spans -/

/-- The text of a code span, with line ends as spaces and without the marks of
containers.  `kept` is where the text begins that has not been written yet. -/
def codeText (window : Window) (context : ProseContext) : Nat → (kept offset : Nat) → String
  | 0, kept, _ => window.slice kept window.stop
  | fuel + 1, kept, offset =>
    match window.byte? offset with
    | none => window.slice kept window.stop
    | some char =>
      if isLineEnd char then
        let nextLine := (window.lineEnd? offset).getD (offset + 1)
        let content := LineCursor.afterMarks window nextLine context.containers
        window.slice kept offset ++ " " ++ codeText window context fuel content content
      else if char = '\\' && context.inTable && window.has (offset + 1) '|' then
        window.slice kept offset ++ codeText window context fuel (offset + 1) (offset + 2)
      else
        codeText window context fuel kept (offset + 1)

/-- The content of a code span between two offsets.  One space goes at each end,
if the content has one at both and is not blank. -/
def codeContent (context : ProseContext) (start stop : Nat) : String :=
  let chars := (codeText (context.window.before stop) context (stop - start) start start).toList
  let isPadded := chars.head? == some ' ' && chars.getLast? == some ' ' && chars.any (· != ' ')
  String.ofList (if isPadded then (chars.drop 1).dropLast else chars)

/-- The first run of a number of backticks, and the atoms behind it. -/
def closingTicks? (count : Nat) : List Atom → Option (Atom × List Atom)
  | [] => none
  | atom :: rest =>
    match atom.kind with
    | .ticks _ =>
      if atom.stop - atom.start = count then some (atom, rest) else closingTicks? count rest
    | _ => closingTicks? count rest

/-! ## Links -/

/-- The text of a link's title, from an offset in the source on.  Escapes and
references are resolved, and the marks at the start of a line are left out; the
atoms behind the link's text show where its lines begin. -/
def titleRest? (context : ProseContext) (atoms : List Atom) (opening closing : Char) :
    Nat → (kept offset : Nat) → (title : String) → Option (String × Nat)
  | 0, _, _, _ => none
  | fuel + 1, kept, offset, title =>
    let window := context.window
    let through (next : Nat) : Option (String × Nat) :=
      titleRest? context atoms opening closing fuel kept next title
    let resolved (text : String) (start next : Nat) : Option (String × Nat) :=
      titleRest? context atoms opening closing fuel start next
        (title ++ window.slice kept offset ++ text)
    let escaped (start : Nat) : Option (String × Nat) :=
      resolved "" start (start + 1)
    match window.byte? offset with
    | none => none
    | some char =>
      if char = closing then
        some (title ++ window.slice kept offset, offset + 1)
      else if char = opening then
        none
      else
        let lineStart? :=
          if isLineEnd char then
            (atomsEndingAfter (offset + 1) atoms).head?.filter fun atom => offset < atom.start
          else
            none
        match lineStart? with
        | some atom => resolved "\n" atom.start atom.start
        | none =>
          match (if char = '&' then entity? window offset else none) with
          | some (stop, value) => resolved value stop stop
          | none =>
            if context.inTable && isEscapedPipe window offset then escaped (offset + 2)
            else if isEscape window offset then escaped (offset + 1)
            else through (offset + 1)

/-- The title of a link at an offset, and the offset behind it. -/
def linkTitle? (context : ProseContext) (atoms : List Atom) (offset : Nat) :
    Option (String × Nat) :=
  let rest? (opening closing : Char) : Option (String × Nat) :=
    titleRest? context atoms opening closing (context.window.stop - offset) (offset + 1)
      (offset + 1) ""
  match context.window.byte? offset with
  | some '"' => rest? '"' '"'
  | some '\'' => rest? '\'' '\''
  | some '(' => rest? '(' ')'
  | _ => none

/-- Pass over blanks with at most one line end between the parts of a link. -/
def skipSeparator (context : ProseContext) (offset : Nat) : Nat :=
  let window := context.window
  let first := window.skipBlanks offset
  match window.byte? first, window.lineEnd? first with
  | some _, some nextLine =>
    window.skipBlanks (LineCursor.afterMarks window nextLine context.containers)
  | _, _ => first

/-- The deepest nesting of parentheses in the target of a link, less one. -/
def targetDepth : Nat := 5

/-- The target and the title in parentheses at an offset, and the offset behind
them. -/
def linkTarget? (context : ProseContext) (atoms : List Atom) (offset : Nat) :
    Option (String × String × Nat) :=
  let window := context.window
  if window.has offset '(' then do
    let (range, behind) ← target? window targetDepth (skipSeparator context (offset + 1))
    let target := unescape window context.inTable range.start range.stop
    let titleStart := skipSeparator context behind
    let (title, close) := match linkTitle? context atoms titleStart with
      | some (title, behind) => (title, skipSeparator context behind)
      | none => ("", titleStart)
    if window.has close ')' then some (target, title, close + 1) else none
  else
    none

/-- What follows the closing bracket of a text that may refer to a definition. -/
inductive Reference where
  /-- A label, the offset behind it, and the atoms from its closing bracket on. -/
  | full (label : String) (stop : Nat) (atoms : List Atom)
  /-- An empty pair of brackets, and the atoms behind it. -/
  | collapsed (atoms : List Atom)
  | nothing

/-- A label that starts with an opening bracket at an offset. -/
def labelAt? (context : ProseContext) (window : Window) (offset : Nat) : Option (String × Nat) :=
  if window.has offset '[' then
    label? window (fun nextLine => some (LineCursor.afterMarks window nextLine context.containers))
      context.inTable (offset + 1)
  else
    none

/-- What follows a closing bracket, behind which certain atoms stand. -/
def Reference.read (context : ProseContext) (atoms : List Atom) : Reference :=
  match atoms with
  | [] => .nothing
  | next :: rest =>
    if context.window.startsWith next.start ['[', ']'] then
      .collapsed (rest.drop 1)
    else
      match labelAt? context context.window next.start with
      | some (label, stop) => .full label stop (atomsEndingAfter (stop - 1) atoms)
      | none => .nothing

/-- The closing bracket at the head of the atoms refers to nothing on its own. -/
def withoutReference : List Atom → List Atom
  | [] => []
  | atom :: rest => { atom with kind := .linkClose false } :: rest

/-- Replace the atoms from those on whose first one has the same place. -/
def replaceFrom (start : Nat) (suffix : List Atom) : List Atom → List Atom
  | [] => []
  | atom :: rest => if atom.start = start then suffix else atom :: replaceFrom start suffix rest

namespace Phrasing

/-- A closing bracket: the phrases, and the atoms that are left. -/
def addClose (context : ProseContext) (phrasing : Phrasing) (atom : Atom) (mayRefer : Bool)
    (rest : List Atom) : Phrasing × List Atom :=
  let window := context.window
  match phrasing.brackets with
  | [] => (phrasing.addText window atom.start atom.stop, rest)
  | bracket :: brackets =>
    let asText (rest : List Atom) : Phrasing × List Atom :=
      ((phrasing.dropBracket window).addText window atom.start atom.stop, rest)
    if bracket.isDisabled then
      asText rest
    else
      match linkTarget? context rest atom.stop with
      | some (target, title, stop) =>
        (phrasing.closeBracket bracket brackets stop target title, atomsFrom stop rest)
      | none =>
        -- The text of the link is its label, if no other label follows.
        let own (behind : List Atom) : Phrasing × List Atom :=
          let found := do
            let (label, stop) ←
              labelAt? context (window.before atom.stop) (bracket.stop - 1)
            if mayRefer && stop = atom.stop then
              Definition.find? context.definitions label
            else
              none
          match found with
          | some definition =>
            (phrasing.closeBracket bracket brackets atom.stop definition.target definition.title,
              behind)
          | none => asText rest
        match Reference.read context rest with
        | .full label stop atoms =>
          match atoms with
          | [] => asText rest
          | close :: behind =>
            match Definition.find? context.definitions label with
            | some definition =>
              (phrasing.closeBracket bracket brackets stop definition.target definition.title,
                behind)
            | none => asText (replaceFrom close.start (withoutReference atoms) rest)
        | .collapsed behind => own behind
        | .nothing => own rest

/-- An angle bracket: the phrases, and the atoms that are left. -/
def addAngle (context : ProseContext) (phrasing : Phrasing) (atom : Atom) (rest : List Atom) :
    Phrasing × List Atom :=
  let window := context.window
  let asText : Phrasing × List Atom := (phrasing.addText window atom.start atom.stop, rest)
  match rest with
  | [] => asText
  | next :: _ =>
    match autolink? window next.start with
    | some (stop, target) =>
      let text : Phrase := .plain {
        span := ⟨atom.start + 1, stop⟩, kind := .text (window.slice (atom.start + 1) stop) }
      (phrasing.add (.linked ⟨atom.start, stop + 1⟩ (.link target "") [text]),
        atomsFrom (stop + 1) rest)
    | none =>
      match rawHtml? window context.containers atom.start next.start with
      | some (html, stop) => (phrasing.addEvent atom.start stop (.html html), atomsFrom stop rest)
      | none => asText

/-- Backticks: the phrases, and the atoms that are left. -/
def addTicks (context : ProseContext) (phrasing : Phrasing) (atom : Atom) (escaped : Bool)
    (rest : List Atom) : Phrasing × List Atom :=
  let window := context.window
  let count := atom.stop - atom.start
  let wanted := if escaped then count - 1 else count
  match (if wanted = 0 then none else closingTicks? wanted rest) with
  | none => (phrasing.addText window atom.start atom.stop, rest)
  | some (close, behind) =>
    let content := codeContent context atom.stop close.start
    let phrasing :=
      if escaped then
        (phrasing.addText window atom.start (atom.start + 1)).addEvent (atom.start + 1) close.stop
          (.code content)
      else
        phrasing.addEvent atom.start close.stop (.code content)
    (phrasing, behind)

/-- Read atoms on. -/
def read (context : ProseContext) : Nat → Phrasing → List Atom → Phrasing
  | 0, phrasing, _ => phrasing
  | _, phrasing, [] => phrasing
  | fuel + 1, phrasing, atom :: rest =>
    let (phrasing, rest) := match atom.kind with
      | .text => (phrasing.addText context.window atom.start atom.stop, rest)
      | .entity value => (phrasing.addEvent atom.start atom.stop (.text value), rest)
      | .run mark opens closes =>
        (phrasing.add (.run mark atom.start (atom.stop - atom.start) opens closes), rest)
      | .ticks escaped => addTicks context phrasing atom escaped rest
      | .angle => addAngle context phrasing atom rest
      | .imageOpen => (phrasing.openBracket atom true, rest)
      | .linkOpen => (phrasing.openBracket atom false, rest)
      | .linkClose mayRefer => addClose context phrasing atom mayRefer rest
      | .softBreak => (phrasing.addEvent atom.start atom.stop .softBreak, rest)
      | .hardBreak true => (phrasing.add (.backslashBreak ⟨atom.start, atom.stop⟩), rest)
      | .hardBreak false => (phrasing.addEvent atom.start atom.stop .hardBreak, rest)
    read context fuel phrasing rest

end Phrasing

/-- The events of running text. -/
def Prose.events (prose : Prose) (source : Window) (definitions : List Definition) :
    List InlineEvent :=
  let context : ProseContext := {
    window := source.before prose.stop
    containers := prose.containers
    inTable := prose.inTable
    definitions }
  let phrasing := Phrasing.read context (prose.atoms.length + 1) {} prose.atoms
  Phrase.eventsOf (phrasing.finish context.window) {}

end WikiPress.Markdown
