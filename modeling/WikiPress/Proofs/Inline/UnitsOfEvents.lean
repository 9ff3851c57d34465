import WikiPress.Proofs.Inline.Units

/-!
# Units that are built from events

Whatever the events are, a unit opens an element with a token that opens one, closes it
with one that closes, and stands alone with one that does neither.  Images are the reason
to look twice: they are entered and left like elements, and become a single token.
-/

namespace WikiPress.SourceUnit

theorem role_openingToken {element : Markdown.Element} (notImage : element.kind ≠ .image) :
    (openingToken element).kind.role = .opening (closingToken element.kind).kind := by
  cases element with
  | image => exact absurd rfl notImage
  | link target title =>
      unfold openingToken
      simp only
      split <;> rfl
  | _ => rfl

theorem role_closingToken {kind : Markdown.Element.Kind} (notImage : kind ≠ .image) :
    (closingToken kind).kind.role = .closing := by
  cases kind with
  | image => exact absurd rfl notImage
  | _ => rfl

@[simp]
theorem kind_imageToken (target title description : String) :
    (imageToken target title description).kind = .image := by
  unfold imageToken
  simp only
  split <;> split <;> rfl

namespace Builder

variable {builder : Builder}

/-! ## Events outside images -/

theorem step_of_noImage (noImage : builder.image = none) (event : Markdown.InlineEvent) :
    builder.step event = builder.stepOutside event := by
  unfold step
  rw [noImage]

theorem stepOutside_enter {element : Markdown.Element} (notImage : element.kind ≠ .image)
    (builder : Builder) (span : Span) :
    builder.stepOutside { span, kind := .enter element } =
      builder.enter span (openingToken element) := by
  cases element with
  | image => exact absurd rfl notImage
  | _ => rfl

theorem stepOutside_leave {kind : Markdown.Element.Kind} (notImage : kind ≠ .image)
    (builder : Builder) (span : Span) :
    builder.stepOutside { span, kind := .leave kind } = builder.leave (closingToken kind) := by
  cases kind with
  | image => exact absurd rfl notImage
  | _ => rfl

/-! ## Tokens that fit -/

/-- All units so far have tokens that fit. -/
def Fitting (builder : Builder) : Prop :=
  ∀ sourceUnit ∈ builder.units, sourceUnit.Fits

theorem Fitting.cons (fitting : builder.Fitting) {sourceUnit : SourceUnit}
    (fits : sourceUnit.Fits) : ∀ other ∈ sourceUnit :: builder.units, other.Fits := by
  intro other member
  rcases List.mem_cons.mp member with rfl | earlier
  · exact fits
  · exact fitting other earlier

theorem Fitting.settle (fitting : builder.Fitting) (nextStart : Nat) :
    (builder.settle nextStart).Fitting := by
  unfold Builder.settle
  split
  · rename_i last rest _ units
    intro sourceUnit member
    rcases List.mem_cons.mp member with rfl | earlier
    · -- only the end of the last unit is moved
      exact fitting last (by simp [units])
    · exact fitting sourceUnit (by simp [units, earlier])
  · exact fitting

theorem Fitting.add (fitting : builder.Fitting) {span : Span} {content : Content}
    (fits : ∀ start stop, Fits { start, stop, content }) : (builder.add span content).Fitting :=
  (fitting.settle span.start).cons (fits _ _)

theorem Fitting.addLeaf (fitting : builder.Fitting) (span : Span) {token : Token}
    (neutral : token.kind.role = .neutral) : (builder.addLeaf span token).Fitting :=
  fitting.add fun _ _ => neutral

theorem Fitting.enter (fitting : builder.Fitting) (span : Span) {token : Token}
    (opens : ∃ closer, token.kind.role = .opening closer) :
    (builder.enter span token).Fitting :=
  (fitting.settle span.start).cons opens

theorem Fitting.leave (fitting : builder.Fitting) {token : Token}
    (closes : token.kind.role = .closing) : (builder.leave token).Fitting := by
  unfold Builder.leave
  exact (fitting.settle 0).cons closes

theorem Fitting.leaveImage (fitting : builder.Fitting) (image : OpenImage) :
    (builder.leaveImage image).Fitting := by
  unfold Builder.leaveImage
  have same : Fitting { builder with image := none } := fitting
  apply same.addLeaf
  rw [kind_imageToken]
  rfl

theorem Fitting.stepInImage (fitting : builder.Fitting) (image : OpenImage)
    (event : Markdown.InlineEvent) : (builder.stepInImage image event).Fitting := by
  unfold Builder.stepInImage
  simp only
  split
  case h_6 =>
    split
    · exact fitting.leaveImage image
    · exact fitting
  all_goals exact fitting

theorem Fitting.stepOutside (fitting : builder.Fitting) (event : Markdown.InlineEvent) :
    (builder.stepOutside event).Fitting := by
  unfold Builder.stepOutside
  simp only
  cases event.kind with
  | text content => exact fitting.add fun _ _ => trivial
  | code content => exact fitting.addLeaf event.span rfl
  | html content => exact fitting.addLeaf event.span rfl
  | softBreak => exact fitting.addLeaf event.span rfl
  | hardBreak => exact fitting.addLeaf event.span rfl
  | enter element =>
      cases element with
      | image target title => exact fitting
      | _ => exact fitting.enter event.span ⟨_, role_openingToken nofun⟩
  | leave kind =>
      cases kind with
      | image => exact fitting
      | _ => exact fitting.leave (role_closingToken nofun)

theorem Fitting.step (fitting : builder.Fitting) (event : Markdown.InlineEvent) :
    (builder.step event).Fitting := by
  unfold Builder.step
  split
  · exact fitting.stepInImage _ event
  · exact fitting.stepOutside event

theorem Fitting.foldl (fitting : builder.Fitting) (events : List Markdown.InlineEvent) :
    (events.foldl Builder.step builder).Fitting := by
  induction events generalizing builder with
  | nil => exact fitting
  | cons event events ih => exact ih (fitting.step event)

end Builder

/-- Every unit of events has a token of the role that the unit gives it. -/
theorem fits_ofEvents (source : String) (events : List Markdown.InlineEvent) :
    ∀ sourceUnit ∈ ofEvents source events, sourceUnit.Fits := by
  have start : Builder.Fitting { source } := nofun
  have fitting := start.foldl events
  intro sourceUnit member
  unfold ofEvents Builder.finish at member
  split at member
  · rename_i image _
    exact fitting.leaveImage image sourceUnit (List.mem_reverse.mp member)
  · exact fitting sourceUnit (List.mem_reverse.mp member)

end WikiPress.SourceUnit
