import WikiPress.Proofs.Inline.RunNesting

/-!
# Where inline tokens come from

Every token of a run is plain text, the token of a unit, or one of the two tokens around a
wiki link that stands in the source.  The opening one shows the target that is written
there, resolved against the pages of the run.
-/

namespace WikiPress

/-! ## Units of events -/

/-- What the units of running text stand for. -/
inductive SourceUnit.Content.Arises : SourceUnit.Content → Prop where
  | text (content : String) (isLiteral : Bool) : Arises (.text content isLiteral)
  | opening (element : Markdown.Element) : Arises (.opening (openingToken element))
  | closing (kind : Markdown.Element.Kind) : Arises (.closing (closingToken kind))
  | code (content : String) :
      Arises (.leaf ((Token.ofKind .codeInline "code" .leaf).withContent content))
  | html (content : String) :
      Arises (.leaf ((Token.ofKind .htmlInline "" .leaf).withContent content))
  | softBreak : Arises (.leaf (Token.ofKind .softbreak "br" .leaf))
  | hardBreak : Arises (.leaf (Token.ofKind .hardbreak "br" .leaf))
  | image (target title description : String) :
      Arises (.leaf (imageToken target title description))

namespace SourceUnit.Builder

/-- All units so far stand for what units of running text stand for. -/
def Arising (builder : Builder) : Prop :=
  ∀ sourceUnit ∈ builder.units, sourceUnit.content.Arises

variable {builder : Builder}

theorem Arising.settle (arising : builder.Arising) (nextStart : Nat) :
    (builder.settle nextStart).Arising := by
  unfold Builder.settle
  split
  · rename_i last rest _ units
    intro sourceUnit member
    rcases List.mem_cons.mp member with rfl | earlier
    · exact arising last (by simp [units])
    · exact arising sourceUnit (by simp [units, earlier])
  · exact arising

theorem Arising.add (arising : builder.Arising) (span : Span) {content : Content}
    (arises : content.Arises) : (builder.add span content).Arising :=
  List.forall_mem_cons.mpr ⟨arises, arising.settle span.start⟩

theorem Arising.enter (arising : builder.Arising) (span : Span) (element : Markdown.Element) :
    (builder.enter span (openingToken element)).Arising :=
  List.forall_mem_cons.mpr ⟨.opening element, arising.settle span.start⟩

theorem Arising.leave (arising : builder.Arising) (kind : Markdown.Element.Kind) :
    (builder.leave (closingToken kind)).Arising := by
  unfold Builder.leave
  exact List.forall_mem_cons.mpr ⟨.closing kind, arising.settle 0⟩

theorem Arising.leaveImage (arising : builder.Arising) (image : OpenImage) :
    (builder.leaveImage image).Arising := by
  have same : Arising { builder with image := none } := arising
  exact same.add image.span (.image image.target image.title image.description)

theorem Arising.step (arising : builder.Arising) (event : Markdown.InlineEvent) :
    (builder.step event).Arising := by
  unfold Builder.step
  split
  · rename_i image _
    unfold Builder.stepInImage
    simp only
    split
    case h_6 =>
      split
      · exact arising.leaveImage image
      · exact arising
    all_goals exact arising
  · unfold Builder.stepOutside
    simp only
    cases event.kind with
    | text content => exact arising.add event.span (.text _ _)
    | code content => exact arising.add event.span (.code content)
    | html content => exact arising.add event.span (.html content)
    | softBreak => exact arising.add event.span .softBreak
    | hardBreak => exact arising.add event.span .hardBreak
    | enter element =>
        cases element with
        | image target title => exact arising
        | _ => exact arising.enter event.span _
    | leave kind =>
        cases kind with
        | image => exact arising
        | _ => exact arising.leave _

theorem Arising.foldl (arising : builder.Arising) (events : List Markdown.InlineEvent) :
    (events.foldl Builder.step builder).Arising := by
  induction events generalizing builder with
  | nil => exact arising
  | cons event events ih => exact ih (arising.step event)

end SourceUnit.Builder

theorem SourceUnit.arises_of_mem_ofEvents {source : String} {events : List Markdown.InlineEvent}
    {sourceUnit : SourceUnit} (member : sourceUnit ∈ ofEvents source events) :
    sourceUnit.content.Arises := by
  have empty : Builder.Arising { source } := nofun
  have arising := empty.foldl events
  unfold ofEvents Builder.finish at member
  split at member
  · rename_i image _
    exact arising.leaveImage image sourceUnit (List.mem_reverse.mp member)
  · exact arising sourceUnit (List.mem_reverse.mp member)

/-! ## Written links -/

namespace WikiLink

/-- The token that opens a link. -/
def openingToken (target : Target) (pages : PageSet) : Token :=
  ((Token.ofKind .linkOpen "a" .opening).addAttribute "href"
    (target.resolve pages).1).addAttribute "class" (target.resolve pages).2

/-- The token that closes a link. -/
def closingToken : Token :=
  Token.ofKind .linkClose "a" .closing

/-- A link to a target stands in a text: its opening brackets at `start`, its closing ones
at `stop`, and the target in front of the first pipe between them. -/
structure StandsAt (source : String) (start stop : Nat) (target : Target) : Prop where
  opens : Text.byteAt? source start = some '[' ∧ Text.byteAt? source (start + 1) = some '['
  closes : Text.byteAt? source stop = some ']' ∧ Text.byteAt? source (stop + 1) = some ']'
  nonempty : start + 2 < stop
  target_eq : ∃ range, range = (ranges (Text.slice source (start + 2) stop) (start + 2)).1 ∧
    target = Target.ofText (Text.slice source range.start range.stop)

theorem standsAt_of_read {tokenizer : Tokenizer} {state back : InlineState}
    (ahead : tokenizer.SkipsAhead) (begins : mayBegin state = true) {target : Target}
    {label : Option Span} {stop : Nat}
    (found : read tokenizer state = (some (target, label, stop), back)) :
    ∃ close, StandsAt state.source state.position close target := by
  obtain ⟨continues, positionEq⟩ := continues_read ahead found
  obtain ⟨close, contentLe, _, firstBracket, secondBracket, linkTo⟩ :=
    exists_linkTo?_of_read ahead found
  unfold mayBegin at begins
  simp only [Bool.and_eq_true, decide_eq_true_eq, beq_iff_eq] at begins
  simp only [linkTo?, continues.source_eq, positionEq] at linkTo
  rcases parts : ranges (Text.slice state.source (state.position + 2) close)
    (state.position + 2) with ⟨targetRange, labelRange⟩
  rw [parts] at linkTo
  simp only at linkTo
  split at linkTo
  · cases linkTo
  · rename_i valid
    cases linkTo
    simp only [Bool.or_eq_true, decide_eq_true_eq, not_or] at valid
    have notEmpty : close ≠ state.position + 2 := valid.1.1.1
    refine ⟨close, ⟨begins.1.2, begins.2⟩, ⟨firstBracket, secondBracket⟩, by omega,
      targetRange, ?_, rfl⟩
    rw [parts]

end WikiLink

/-! ## Tokens of a run -/

/-- Where a token of a run comes from. -/
inductive Token.Origin (source : String) (pages : PageSet) (units : List SourceUnit) :
    Token → Prop where
  | text (content : String) : Origin source pages units (Token.ofText content)
  | unit {sourceUnit : SourceUnit} {token : Token} (member : sourceUnit ∈ units)
      (content : sourceUnit.content = .opening token ∨ sourceUnit.content = .closing token ∨
        sourceUnit.content = .leaf token) : Origin source pages units token
  | link {start stop : Nat} {target : WikiLink.Target}
      (stands : WikiLink.StandsAt source start stop target) :
      Origin source pages units (WikiLink.openingToken target pages)
  | linkEnd : Origin source pages units WikiLink.closingToken

variable {source : String} {pages : PageSet} {units : List SourceUnit}

namespace InlineState

/-- A state of a run, all of whose tokens come from the run. -/
structure Draws (source : String) (pages : PageSet) (units : List SourceUnit)
    (state : InlineState) : Prop where
  source_eq : state.source = source
  pages_eq : state.pages = pages
  units_eq : state.units = units
  tokens : ∀ token ∈ state.tokens, token.Origin source pages units

variable {state : InlineState}

theorem Draws.flush (draws : Draws source pages units state) :
    Draws source pages units state.flush := by
  unfold InlineState.flush
  split
  · exact draws
  · exact ⟨draws.source_eq, draws.pages_eq, draws.units_eq,
      List.forall_mem_cons.mpr ⟨.text _, draws.tokens⟩⟩

theorem Draws.push (draws : Draws source pages units state) {token : Token}
    (origin : token.Origin source pages units) :
    Draws source pages units (state.push token) :=
  ⟨draws.flush.source_eq, draws.flush.pages_eq, draws.flush.units_eq,
    List.forall_mem_cons.mpr ⟨origin, draws.flush.tokens⟩⟩

theorem Draws.pushText (draws : Draws source pages units state) (text : String) :
    Draws source pages units (state.pushText text) :=
  ⟨draws.source_eq, draws.pages_eq, draws.units_eq, draws.tokens⟩

theorem Draws.goto (draws : Draws source pages units state) (position : Nat) :
    Draws source pages units (state.goto position) :=
  ⟨draws.source_eq, draws.pages_eq, draws.units_eq, draws.tokens⟩

theorem Draws.passToken (draws : Draws source pages units state) (emit : Bool) {token : Token}
    (origin : token.Origin source pages units) (stop : Nat) :
    Draws source pages units (state.passToken emit token stop) := by
  unfold InlineState.passToken
  split
  · have counted : Draws source pages units
        { state with linkLevel := linkLevelAfter state.linkLevel token } :=
      ⟨draws.source_eq, draws.pages_eq, draws.units_eq, draws.tokens⟩
    exact (counted.push origin).goto stop
  · exact draws.goto stop

theorem Draws.step (draws : Draws source pages units state) (emit : Bool) :
    Draws source pages units (state.step emit) := by
  unfold InlineState.step
  cases found : state.currentUnit? with
  | none => exact draws.goto _
  | some sourceUnit =>
      have member : sourceUnit ∈ units := draws.units_eq ▸ List.mem_of_find?_eq_some found
      simp only
      split
      · exact draws.goto _
      · cases content : sourceUnit.content with
        | text text isLiteral =>
            cases isLiteral with
            | true =>
                simp only
                split
                · split
                  · exact (draws.pushText _).goto _
                  · exact draws.goto _
                · exact draws.goto _
            | false =>
                simp only
                split
                · exact (draws.pushText _).goto _
                · exact draws.goto _
        | opening token => exact draws.passToken emit (.unit member (.inl content)) _
        | closing token => exact draws.passToken emit (.unit member (.inr (.inl content))) _
        | leaf token => exact draws.passToken emit (.unit member (.inr (.inr content))) _

end InlineState

open InlineState

namespace Tokenizer

/-- A tokenizer that draws all its tokens from the run. -/
def KeepsOrigin (source : String) (pages : PageSet) (units : List SourceUnit)
    (tokenizer : Tokenizer) : Prop :=
  ∀ state, Draws source pages units state → Draws source pages units (tokenizer.tokenize state)

variable {inner : Tokenizer} {state : InlineState}

theorem draws_write (keeps : inner.KeepsOrigin source pages units)
    (draws : Draws source pages units state) {target : WikiLink.Target} {start stop : Nat}
    (stands : WikiLink.StandsAt source start stop target) (label : Option Span) (next : Nat) :
    Draws source pages units (WikiLink.write inner state target label next) := by
  have opened : Draws source pages units
      (state.push (WikiLink.openingToken target state.pages)) := by
    rw [draws.pages_eq]
    exact draws.push (.link stands)
  cases label with
  | none => exact ((opened.pushText target.destination).push .linkEnd).goto next
  | some range =>
      have inside : Draws source pages units
          { state.push (WikiLink.openingToken target state.pages) with
            position := range.start
            limit := range.stop
            linkLevel := (state.push (WikiLink.openingToken target state.pages)).linkLevel + 1 } :=
        ⟨opened.source_eq, opened.pages_eq, opened.units_eq, opened.tokens⟩
      have written := keeps _ inside
      have labelled : Draws source pages units (WikiLink.writeLabel inner
          (state.push (WikiLink.openingToken target state.pages)) range) :=
        ⟨written.source_eq, written.pages_eq, written.units_eq, written.tokens⟩
      exact (labelled.push .linkEnd).goto next

theorem draws_round (forward : inner.SkipsForward) (keeps : inner.KeepsOrigin source pages units)
    (draws : Draws source pages units state) {attempt : InlineRule.Attempt}
    (tried : InlineRule.tryAll inner [WikiLink.rule] state = attempt) :
    Draws source pages units
      (if attempt.isMatch then attempt.state else attempt.state.step true) := by
  rcases tryAll_wikiLink forward state with
    noLink | ⟨target, label, stop, begins, read, written⟩
  · rw [← tried, noLink]
    exact draws.step true
  · rw [← tried, written]
    obtain ⟨close, stands⟩ := WikiLink.standsAt_of_read forward.skipsAhead begins read
    rw [draws.source_eq] at stands
    exact draws_write keeps draws stands label stop

theorem keepsOrigin_withRules (depth : Nat) :
    (withRules [WikiLink.rule] depth).KeepsOrigin source pages units := by
  induction depth with
  | zero => exact fun state draws => draws.flush
  | succ depth ih =>
      intro state draws
      -- Labels are written by the tokenizer one level below; on this level the bound on the
      -- rounds is what the loop recurses on.
      change Draws source pages units
        (tokenizeWith [WikiLink.rule] (withRules [WikiLink.rule] depth) _ state)
      induction state.limit - state.position generalizing state with
      | zero => exact draws.flush
      | succ rounds roundsIh =>
          unfold tokenizeWith
          split
          · exact roundsIh _ (draws_round (skipsForward_withRules depth) ih draws rfl)
          · exact draws.flush

end Tokenizer

/-- Every token of a run comes from the run. -/
theorem origin_of_mem_tokenizeRun {token : Token}
    (member : token ∈ tokenizeRun source pages [WikiLink.rule] units) :
    token.Origin source pages units := by
  unfold tokenizeRun at member
  split at member
  · have begins (position limit : Nat) : Draws source pages units
        { source, position, limit, pages, units } := ⟨rfl, rfl, rfl, nofun⟩
    exact (Tokenizer.keepsOrigin_withRules _ _ (begins _ _)).tokens token
      (List.mem_reverse.mp member)
  · cases member

end WikiPress
