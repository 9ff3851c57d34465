import WikiPress.Text.CaseFolding
import WikiPress.Markdown.Entity

/-!
# The parts of a link

A link has a label in brackets, and a target and a title that stand either
behind it in parentheses or in the definition of its label.  Labels are compared
without regard to case and to the length of blank space; this file reads labels
and targets and supplies the definitions.
-/

namespace WikiPress.Markdown

open Text

/-- The target and the title that a label is defined with. -/
structure Definition where
  /-- The label as it is compared. -/
  label : List Char
  target : String
  title : String
deriving Inhabited

/-- The form in which labels are compared. -/
def Definition.key (label : String) : List Char :=
  foldCase label.toList

/-- The definition of a label. -/
def Definition.find? (definitions : List Definition) (label : String) : Option Definition :=
  let key := Definition.key label
  definitions.find? fun definition => definition.label = key

/-- Add a definition; the first one of a label counts. -/
def Definition.insert (definitions : List Definition) (definition : Definition) : List Definition :=
  if definitions.any fun other => other.label = definition.label then definitions
  else definitions ++ [definition]

/-- What has been read of a label. -/
structure LabelScan where
  position : Nat
  /-- The label up to `kept`, with blank space collapsed. -/
  text : String := ""
  /-- Where the text begins that `text` lacks. -/
  kept : Nat
  isBlank : Bool := true
  /-- A measure of the label's length, which is limited. -/
  length : Nat := 0

namespace LabelScan

/-- The greatest length of a label. -/
def lengthLimit : Nat := 1000

/-- Pass over blank space with at most one line end.  `lineStart` gives the
offset at which the content of a line begins, or refuses the line.  The number
counts a single space as one and everything else as more. -/
def passSpace? (window : Window) (lineStart : Nat → Option Nat) :
    Nat → Nat → Nat → Bool → Option (Nat × Nat)
  | 0, position, width, _ => some (position, width)
  | fuel + 1, position, width, hasLineEnd =>
    match window.byte? position with
    | none => some (position, width)
    | some char =>
      if isLineEnd char then
        if hasLineEnd then
          none
        else do
          let nextLine ← window.lineEnd? position
          let content ← lineStart nextLine
          passSpace? window lineStart fuel content (width + 2) true
      else if isLineBlank char then
        passSpace? window lineStart fuel (position + 1)
          (if char = ' ' then width + 1 else width + 2)
          hasLineEnd
      else
        some (position, width)

/-- Read a label up to its closing bracket.  In a table, the backslash that keeps
a pipe in its cell is not part of the label. -/
def read? (window : Window) (lineStart : Nat → Option Nat) (inTable : Bool) :
    Nat → LabelScan → Option LabelScan
  | 0, _ => none
  | fuel + 1, scan =>
    if lengthLimit ≤ scan.length then
      none
    else
      match window.byte? scan.position with
      | none => none
      | some '[' => none
      | some ']' => some scan
      | some '\\' =>
        if inTable && window.has (scan.position + 1) '|' then
          read? window lineStart inTable fuel
            { scan with
              position := scan.position + 2
              text := scan.text ++ window.slice scan.kept scan.position
              kept := scan.position + 1
              length := scan.length + 1
              isBlank := false }
        else
          read? window lineStart inTable fuel
            { scan with position := scan.position + 2, length := scan.length + 2, isBlank := false }
      | some char =>
        if isAsciiBlank char then
          match passSpace? window lineStart (window.stop - scan.position) scan.position 0 false with
          | none => none
          | some (behind, width) =>
            if 1 < width then
              read? window lineStart inTable fuel
                { scan with
                  position := behind
                  text := scan.text ++ window.slice scan.kept scan.position ++ " "
                  kept := behind
                  length := scan.length + (behind - scan.position) }
            else
              read? window lineStart inTable fuel
                { scan with position := behind, length := scan.length + 1 }
        else
          let length := if char.toNat < 128 then scan.length else scan.length + 1
          read? window lineStart inTable fuel
            { scan with position := scan.position + 1, isBlank := false, length }

end LabelScan

/-- A label whose opening bracket is in front of `offset`: its text, and the
offset behind its closing bracket.  A label is not blank. -/
def label? (window : Window) (lineStart : Nat → Option Nat) (inTable : Bool) (offset : Nat) :
    Option (String × Nat) :=
  match LabelScan.read? window lineStart inTable (window.stop - offset + 1)
      { position := offset, kept := offset } with
  | none => none
  | some scan =>
    if scan.isBlank then none
    else some (scan.text ++ window.slice scan.kept scan.position, scan.position + 1)

/-- The end of a target in angle brackets; `offset` is behind the opening one. -/
def bracketedTargetEnd? (window : Window) : Nat → Nat → Option Nat
  | 0, _ => none
  | fuel + 1, offset =>
    match window.byte? offset with
    | none => none
    | some '>' => some offset
    | some '<' => none
    | some '\n' => none
    | some '\r' => none
    | some _ =>
      bracketedTargetEnd? window fuel (if isEscape window offset then offset + 2 else offset + 1)

/-- The end of a target without angle brackets, whose parentheses are balanced
and nested at most `depth + 1` deep. -/
def plainTargetEnd? (window : Window) (depth : Nat) : Nat → Nat → Nat → Option Nat
  | 0, offset, nested => if nested = 0 then some offset else none
  | fuel + 1, offset, nested =>
    let finish : Option Nat := if nested = 0 then some offset else none
    match window.byte? offset with
    | none => finish
    | some '(' =>
      if depth < nested then none else plainTargetEnd? window depth fuel (offset + 1) (nested + 1)
    | some ')' =>
      if nested = 0 then finish else plainTargetEnd? window depth fuel (offset + 1) (nested - 1)
    | some char =>
      if char ≤ ' ' then finish
      else if isEscape window offset then plainTargetEnd? window depth fuel (offset + 2) nested
      else plainTargetEnd? window depth fuel (offset + 1) nested

/-- The target at an offset, as a range of the text, and the offset behind it.
Parentheses in it are nested at most `depth + 1` deep. -/
def target? (window : Window) (depth offset : Nat) : Option (Span × Nat) :=
  let fuel := window.stop - offset + 1
  if window.has offset '<' then
    (bracketedTargetEnd? window fuel (offset + 1)).map fun stop => (⟨offset + 1, stop⟩, stop + 1)
  else
    (plainTargetEnd? window depth fuel offset 0).map fun stop => (⟨offset, stop⟩, stop)

end WikiPress.Markdown
