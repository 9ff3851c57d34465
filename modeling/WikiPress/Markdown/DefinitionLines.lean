import WikiPress.Markdown.BlockStart
import WikiPress.Markdown.LinkParts

/-!
# Reading link definitions

A definition `[label]: target "title"` may spread over several lines, as long as
none of them begins another block.  It is read in front of a paragraph.
-/

namespace WikiPress.Markdown

open Text

/-- Where the content of a further line of a definition begins, if the line can
belong to it.  A line indented by four columns begins no other block. -/
def definitionLine? (window : Window) (containers : List Container) (start : Nat) :
    Option LineCursor :=
  let (cursor, isInside) := LineCursor.enterLine window start containers
  let (indented, missing) := cursor.claim 4
  let begins :=
    endsParagraph window containers isInside indented.position
      || (underline? window indented.position).isSome
  if missing != 0 && begins then none else some indented

/-- Where the content of a further line of a label begins, if the line can belong
to it. -/
def labelLine? (window : Window) (containers : List Container) (start : Nat) : Option Nat :=
  let (cursor, isInside) := LineCursor.enterLine window start containers
  let begins :=
    endsParagraph window containers isInside cursor.position
      || (isInside && (underline? window cursor.position).isSome)
  if begins then none else some cursor.position

/-- Pass over the space between two parts of a definition, with at most one line
end: the offset behind it, and whether there was a line end. -/
def definitionSpace? (window : Window) (containers : List Container) (offset : Nat) :
    Option (Nat × Bool) :=
  let first := window.skipBlanks offset
  match window.lineEnd? first with
  | none => some (first, false)
  | some nextLine =>
    match definitionLine? window containers nextLine with
    | none => none
    | some cursor =>
      let second := window.skipBlanks cursor.position
      if (window.lineEnd? second).isSome then none else some (second, true)

/-- What has been read of a title: the finished lines, and where the line begins
that is being read. -/
structure TitleScan where
  lines : String := ""
  lineStart : Nat

/-- Read a title up to its closing mark: its text as it is written, and the
offset behind the mark. -/
def definitionTitleRest? (window : Window) (containers : List Container) (closing : Char) :
    Nat → Nat → TitleScan → Option (String × Nat)
  | 0, _, _ => none
  | fuel + 1, offset, scan =>
    match window.byte? offset with
    | none => none
    | some char =>
      if char = '(' && closing = ')' then
        none
      else if char = closing then
        some (scan.lines ++ window.slice scan.lineStart offset, offset + 1)
      else if isLineEnd char then do
        let nextLine ← window.lineEnd? offset
        let cursor ← definitionLine? window containers nextLine
        let start := cursor.claimAll.position
        definitionTitleRest? window containers closing fuel start
          { lines := scan.lines ++ window.slice scan.lineStart offset ++ "\n", lineStart := start }
      else if char = '\\' && window.holds (offset + 1) (!isLineEnd ·) then
        definitionTitleRest? window containers closing fuel (offset + 2) scan
      else
        definitionTitleRest? window containers closing fuel (offset + 1) scan

/-- The title at an offset, as it is written, and the offset behind it. -/
def definitionTitle? (window : Window) (containers : List Container) (offset : Nat) :
    Option (String × Nat) :=
  let rest? (closing : Char) : Option (String × Nat) :=
    definitionTitleRest? window containers closing (window.stop - offset) (offset + 1)
      { lineStart := offset + 1 }
  match window.byte? offset with
  | some '"' => rest? '"'
  | some '\'' => rest? '\''
  | some '(' => rest? ')'
  | _ => none

/-- The target and the title behind the colon of a definition, and the offset
behind them.  A title that is not alone at the end of its line, or that is not
complete, belongs to the definition only if it has to: if it stands on the line
of the target. -/
def definitionBody? (window : Window) (containers : List Container) (offset : Nat) :
    Option (String × String × Nat) := do
  let (start, _) ← definitionSpace? window containers offset
  let (range, stop) ← target? window 1 start
  if stop = start then
    none
  else
    let target := unescape window false range.start range.stop
    let untitled : String × String × Nat := (target, "", stop)
    match definitionSpace? window containers stop with
    | none => some untitled
    | some (titleStart, hasLineEnd) =>
      if titleStart = stop && !hasLineEnd then
        none
      else
        match definitionTitle? window containers titleStart with
        | some (written, behind) =>
          if window.isBlankRest behind then
            let title := unescape (Window.whole written) false 0 written.utf8ByteSize
            some (target, title, behind)
          else if hasLineEnd then some untitled
          else none
        | none => if hasLineEnd then some untitled else none

/-- The definition at an offset, and the offset behind it. -/
def definition? (window : Window) (containers : List Container) (offset : Nat) :
    Option (Definition × Nat) :=
  if window.has offset '[' then do
    let (label, behind) ← label? window (labelLine? window containers) false (offset + 1)
    if window.has behind ':' then do
      let (target, title, stop) ← definitionBody? window containers (behind + 1)
      some ({ label := Definition.key label, target, title }, stop)
    else
      none
  else
    none

end WikiPress.Markdown
