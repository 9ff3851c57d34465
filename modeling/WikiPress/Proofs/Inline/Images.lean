import WikiPress.Proofs.Inline.UnitsOfEvents

/-!
# Images

An image is entered and left like an element, but it is a single unit: of the events inside it
only the text is kept, as its description, and marks of emphasis and the like are passed over.
An image may hold images, which are counted, so that the one that is left last is the one that
was entered first.
-/

namespace WikiPress

open Markdown

namespace Markdown.InlineEvent

/-! ## Nested events and their text -/

/-- Whether an event neither enters nor leaves an element. -/
def Kind.isAlone : Kind → Bool
  | .enter _ | .leave _ => false
  | _ => true

/-- Events that enter and leave elements, those first that have been entered last. -/
inductive Nested : List InlineEvent → Prop where
  | nil : Nested []
  | single {event : InlineEvent} {rest : List InlineEvent} (alone : event.kind.isAlone = true)
      (behind : Nested rest) : Nested (event :: rest)
  | element {element : Element} {span : Span} {content rest : List InlineEvent}
      (inside : Nested content) (behind : Nested rest) :
      Nested ({ span, kind := .enter element } ::
        (content ++ { span, kind := .leave element.kind } :: rest))

/-- What an event adds to the description of an image. -/
def Kind.described : Kind → String
  | .text content | .code content => content
  | .softBreak | .hardBreak => "\n"
  | _ => ""

/-- The description of an image with events inside it. -/
def description : List InlineEvent → String
  | [] => ""
  | event :: events => event.kind.described ++ description events

@[simp]
theorem description_append (first second : List InlineEvent) :
    description (first ++ second) = description first ++ description second := by
  induction first with
  | nil => exact (String.empty_append).symm
  | cons event events ih =>
      rw [List.cons_append, description, description, ih, String.append_assoc]

/-- What an element adds to a description is what stands inside it. -/
theorem description_enclosed (element : Element) (span : Span)
    (content rest : List InlineEvent) :
    description ({ span, kind := .enter element } ::
        (content ++ { span, kind := .leave element.kind } :: rest)) =
      description content ++ description rest := by
  simp only [description, description_append, Kind.described, String.empty_append]

end Markdown.InlineEvent

open Markdown.InlineEvent (Nested description)

namespace SourceUnit

/-! ## Events inside images -/

/-- An image whose description goes on. -/
def OpenImage.describe (image : OpenImage) (text : String) : OpenImage :=
  { image with description := image.description ++ text }

@[simp]
theorem OpenImage.describe_empty (image : OpenImage) : image.describe "" = image := by
  rw [describe, String.append_empty]

@[simp]
theorem OpenImage.describe_append (image : OpenImage) (first second : String) :
    image.describe (first ++ second) = (image.describe first).describe second := by
  simp only [describe, String.append_assoc]

namespace Builder

theorem foldl_enclosed (builder : Builder) (first last : InlineEvent)
    (inside rest : List InlineEvent) :
    (first :: (inside ++ last :: rest)).foldl step builder =
      rest.foldl step ((inside.foldl step (builder.step first)).step last) := by
  rw [List.foldl_cons, List.foldl_append, List.foldl_cons]

theorem step_alone_of_image {event : InlineEvent} (alone : event.kind.isAlone = true)
    (builder : Builder) (image : OpenImage) :
    step { builder with image := some image } event =
      { builder with image := some (image.describe event.kind.described) } := by
  obtain ⟨span, kind⟩ := event
  cases kind with
  | enter | leave => cases alone
  | html => simp [step, stepInImage, InlineEvent.Kind.described]
  | _ => rfl

theorem step_enter_of_image {element : Element} (notImage : element.kind ≠ .image)
    (builder : Builder) (image : OpenImage) (span : Span) :
    step { builder with image := some image } { span, kind := .enter element } =
      { builder with image := some image } := by
  cases element with
  | image => exact absurd rfl notImage
  | _ => rfl

theorem step_leave_of_image {kind : Element.Kind} (notImage : kind ≠ .image)
    (builder : Builder) (image : OpenImage) (span : Span) :
    step { builder with image := some image } { span, kind := .leave kind } =
      { builder with image := some image } := by
  cases kind with
  | image => exact absurd rfl notImage
  | _ => rfl

/-- Of the events inside an image only their text is kept. -/
theorem foldl_inside_image {events : List InlineEvent} (nested : Nested events)
    (builder : Builder) (image : OpenImage) :
    events.foldl step { builder with image := some image } =
      { builder with image := some (image.describe (description events)) } := by
  induction nested generalizing image with
  | nil => rw [description, OpenImage.describe_empty]; rfl
  | single alone _ ih =>
      rw [List.foldl_cons, step_alone_of_image alone, ih, description, OpenImage.describe_append]
  | @element element _ _ _ _ _ insideIh ih =>
      rw [foldl_enclosed, InlineEvent.description_enclosed, OpenImage.describe_append, ← ih]
      by_cases isImage : element.kind = .image
      · cases element with
        | image target title =>
            -- an image inside is entered and left, which the depth counts
            have entered := insideIh { image with depth := image.depth + 1 }
            exact congrArg (fun read => List.foldl step (step read _) _) entered
        | _ => cases isImage
      · rw [step_enter_of_image isImage, insideIh, step_leave_of_image isImage]

/-- An image is a token of its own, whatever it holds. -/
theorem foldl_image {builder : Builder} (noImage : builder.image = none)
    {content : List InlineEvent} (nested : Nested content) (span : Span)
    (target title : String) :
    (content.foldl step (builder.step { span, kind := .enter (.image target title) })).step
        { span, kind := .leave .image } =
      builder.addLeaf span (imageToken target title (description content)) := by
  have entered : builder.step { span, kind := .enter (.image target title) } =
      { builder with image := some { span, target, title } } := by
    rw [step_of_noImage noImage]
    rfl
  have closed : { builder with image := none } = builder := by
    rw [← noImage]
  have left (image : OpenImage) (outermost : image.depth = 0) :
      step { builder with image := some image } { span, kind := .leave .image } =
        builder.addLeaf image.span (imageToken image.target image.title image.description) := by
    simp only [step, stepInImage, outermost, if_true, leaveImage, closed]
  rw [entered, foldl_inside_image nested, left _ rfl, OpenImage.describe, String.empty_append]

end Builder

end SourceUnit

end WikiPress
