import WikiPress.Markdown.InlineEvent
import WikiPress.Token

/-!
# Source units

The events of running text say what was read and where.  Source units say it in
another way: the text is divided into stretches, one behind the other, and each
stretch is text, opens or closes an element, or is a token of its own.  The
stretch that opens an element ends where its content begins, and the one that
closes it begins where its content ends, so that marks and link targets belong
to the elements.  Escaping backslashes and the marks of containers belong to no
unit.
-/

namespace WikiPress

open Markdown

/-- What a stretch of running text stands for. -/
inductive SourceUnit.Content where
  /-- Text.  It is literal if it is written as it reads; a cursor may then stop
  inside it. -/
  | text (content : String) (isLiteral : Bool)
  | opening (token : Token)
  | closing (token : Token)
  | leaf (token : Token)
deriving Inhabited

/-- A stretch of running text. -/
structure SourceUnit where
  start : Nat
  stop : Nat
  content : SourceUnit.Content
deriving Inhabited

namespace SourceUnit

/-- Whether a unit is text that is written as it reads. -/
def isLiteral (sourceUnit : SourceUnit) : Bool :=
  match sourceUnit.content with
  | .text _ isLiteral => isLiteral
  | _ => false

/-- Whether a unit is a line break. -/
def isBreak (sourceUnit : SourceUnit) : Bool :=
  match sourceUnit.content with
  | .leaf token => token.kind == .softbreak || token.kind == .hardbreak
  | _ => false

/-- The token that opens an element.  Images are tokens of their own. -/
def openingToken : Element → Token
  | .emphasis => Token.ofKind .emOpen "em" .opening
  | .strong => Token.ofKind .strongOpen "strong" .opening
  | .strikethrough => Token.ofKind .strikethroughOpen "s" .opening
  | .link target title =>
    let token := (Token.ofKind .linkOpen "a" .opening).addAttribute "href" target
    if title.isEmpty then token else token.addAttribute "title" title
  | .image _ _ => Token.ofKind .image "img" .leaf

/-- The token that closes an element. -/
def closingToken : Element.Kind → Token
  | .emphasis => Token.ofKind .emClose "em" .closing
  | .strong => Token.ofKind .strongClose "strong" .closing
  | .strikethrough => Token.ofKind .strikethroughClose "s" .closing
  | .link => Token.ofKind .linkClose "a" .closing
  | .image => Token.ofKind .image "img" .leaf

/-- The token of an image with the text that describes it. -/
def imageToken (target title description : String) : Token :=
  let token := ((Token.ofKind .image "img" .leaf).addAttribute "src" target).addAttribute "alt"
    description
  let titled := if title.isEmpty then token else token.addAttribute "title" title
  if description.isEmpty then titled
  else { titled with children := some [Token.ofText description] }

/-! ## Units from events -/

/-- An image that has been entered. -/
structure OpenImage where
  span : Span
  target : String
  title : String
  /-- The text of the image so far. -/
  description : String := ""
  /-- The number of images inside it that have been entered and not left. -/
  depth : Nat := 0

/-- Units of the events up to some point. -/
structure Builder where
  source : String
  /-- The units, the last first. -/
  units : List SourceUnit := []
  /-- Where the elements end that have been entered, the innermost first. -/
  ends : List Nat := []
  /-- Whether the last unit opens an element and ends where the next one begins. -/
  isOpening : Bool := false
  /-- The image whose text is being read. -/
  image : Option OpenImage := none

namespace Builder

/-- The last unit, if it waits for it, ends where the next one begins. -/
def settle (builder : Builder) (nextStart : Nat) : Builder :=
  match builder.isOpening, builder.units with
  | true, last :: rest =>
    { builder with
      units := { last with stop := max nextStart (last.start + 1) } :: rest
      isOpening := false }
  | _, _ => { builder with isOpening := false }

/-- Add a unit that fills its range. -/
def add (builder : Builder) (span : Span) (content : Content) : Builder :=
  let settled := builder.settle span.start
  let sourceUnit : SourceUnit :=
    { start := span.start, stop := max span.stop (span.start + 1), content }
  { settled with units := sourceUnit :: settled.units }

/-- Add a token of its own. -/
def addLeaf (builder : Builder) (span : Span) (token : Token) : Builder :=
  builder.add span (.leaf token)

/-- Enter an element. -/
def enter (builder : Builder) (span : Span) (token : Token) : Builder :=
  let settled := builder.settle span.start
  let sourceUnit : SourceUnit :=
    { start := span.start, stop := span.start + 1, content := .opening token }
  { settled with
    units := sourceUnit :: settled.units
    ends := span.stop :: settled.ends
    isOpening := true }

/-- Leave the innermost element. -/
def leave (builder : Builder) (token : Token) : Builder :=
  let settled := builder.settle 0
  let previousStop := match settled.units with
    | [] => 0
    | last :: _ => last.stop
  let (elementStop, ends) := match settled.ends with
    | [] => (previousStop + 1, [])
    | elementStop :: ends => (elementStop, ends)
  let start := min previousStop (elementStop - 1)
  let sourceUnit : SourceUnit :=
    { start, stop := max elementStop (start + 1), content := .closing token }
  { settled with units := sourceUnit :: settled.units, ends }

/-- Leave an image. -/
def leaveImage (builder : Builder) (image : OpenImage) : Builder :=
  { builder with image := none }.addLeaf image.span
    (imageToken image.target image.title image.description)

/-- Read an event inside an image, of which only the text is kept. -/
def stepInImage (builder : Builder) (image : OpenImage) (event : InlineEvent) : Builder :=
  let described (text : String) : Builder :=
    { builder with image := some { image with description := image.description ++ text } }
  match event.kind with
  | .text content => described content
  | .code content => described content
  | .softBreak => described "\n"
  | .hardBreak => described "\n"
  | .enter (.image _ _) => { builder with image := some { image with depth := image.depth + 1 } }
  | .leave .image =>
    if image.depth = 0 then builder.leaveImage image
    else { builder with image := some { image with depth := image.depth - 1 } }
  | _ => builder

/-- Read an event outside images. -/
def stepOutside (builder : Builder) (event : InlineEvent) : Builder :=
  let span := event.span
  match event.kind with
  | .text content =>
    let written := Text.slice? builder.source span.start span.stop
    builder.add span (.text content (written == some content))
  | .code content =>
    builder.addLeaf span ((Token.ofKind .codeInline "code" .leaf).withContent content)
  | .html content =>
    builder.addLeaf span ((Token.ofKind .htmlInline "" .leaf).withContent content)
  | .softBreak => builder.addLeaf span (Token.ofKind .softbreak "br" .leaf)
  | .hardBreak => builder.addLeaf span (Token.ofKind .hardbreak "br" .leaf)
  | .enter (.image target title) => { builder with image := some { span, target, title } }
  | .enter element => builder.enter span (openingToken element)
  | .leave .image => builder
  | .leave kind => builder.leave (closingToken kind)

/-- Read an event. -/
def step (builder : Builder) (event : InlineEvent) : Builder :=
  match builder.image with
  | some image => builder.stepInImage image event
  | none => builder.stepOutside event

/-- The units, in order. -/
def finish (builder : Builder) : List SourceUnit :=
  match builder.image with
  | some image => (builder.leaveImage image).units.reverse
  | none => builder.units.reverse

end Builder

/-- The units of running text. -/
def ofEvents (source : String) (events : List InlineEvent) : List SourceUnit :=
  (events.foldl Builder.step { source }).finish

/-! ## The source of a run -/

/-- The source of units behind a unit: line breaks are newlines, and what stands
behind a line break and belongs to no unit is left out. -/
def contentBehind (source : String) (previous : SourceUnit) : List SourceUnit → String
  | [] => ""
  | sourceUnit :: rest =>
    let gap :=
      if previous.stop < sourceUnit.start && !previous.isBreak then
        (Text.slice? source previous.stop sourceUnit.start).getD ""
      else
        ""
    let own :=
      if sourceUnit.isBreak then "\n"
      else
        (Text.slice? source (max sourceUnit.start previous.stop) sourceUnit.stop).getD ""
    gap ++ own ++ contentBehind source sourceUnit rest

/-- The source of a run of units: line breaks are newlines, and the marks of
containers at the start of lines are left out. -/
def runContent (source : String) : List SourceUnit → String
  | [] => ""
  | first :: rest =>
    let own :=
      if first.isBreak then "\n" else (Text.slice? source first.start first.stop).getD ""
    own ++ contentBehind source first rest

end SourceUnit

end WikiPress
