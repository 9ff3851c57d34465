import WikiPress.Proofs.Inline.RunSource

/-!
# How the units of events lie

Where an element ends inside its marks is not known when its events are read: the unit that
opens it ends where the next unit begins, and the one that closes it begins where the unit
before it ends.  If the events lie one behind the other, and the elements around what stands
inside them, then no unit is empty, none leaves the range of the events, and they are as well
nested as the events.  None reaches into the next one exactly if every element that holds
nothing has two bytes: the unit that opens it and the one that closes it have a byte each.

`SourceUnit.Represents` says which units those are: one for each event, and a single one for
an image with all that stands inside it.
-/

namespace WikiPress

open Markdown

/-! ## Events that are laid out -/

namespace Markdown.InlineEvent

/-- Events that lie one behind the other between two positions, none of them empty.  What stands
inside an element lies between the first byte of the element and its last one; an element that
holds nothing has at least a certain number of bytes.  Where the events inside an image lie does
not matter. -/
inductive LaidOut (least : Nat) : (lower upper : Nat) → List InlineEvent → Prop where
  | nil {lower upper : Nat} (inOrder : lower ≤ upper) : LaidOut least lower upper []
  | single {lower upper : Nat} {event : InlineEvent} {rest : List InlineEvent}
      (alone : event.kind.isAlone = true) (lowerLe : lower ≤ event.span.start)
      (filled : event.span.start < event.span.stop)
      (behind : LaidOut least event.span.stop upper rest) :
      LaidOut least lower upper (event :: rest)
  | childless {lower upper : Nat} {element : Element} {span : Span} {rest : List InlineEvent}
      (notImage : element.kind ≠ .image) (lowerLe : lower ≤ span.start)
      (wide : span.start + least ≤ span.stop) (behind : LaidOut least span.stop upper rest) :
      LaidOut least lower upper
        ({ span, kind := .enter element } :: { span, kind := .leave element.kind } :: rest)
  | element {lower upper : Nat} {element : Element} {span : Span}
      {content rest : List InlineEvent} (notImage : element.kind ≠ .image)
      (lowerLe : lower ≤ span.start) (holds : content ≠ [])
      (inside : LaidOut least (span.start + 1) (span.stop - 1) content)
      (behind : LaidOut least span.stop upper rest) :
      LaidOut least lower upper ({ span, kind := .enter element } ::
        (content ++ { span, kind := .leave element.kind } :: rest))
  | image {lower upper : Nat} {target title : String} {span : Span}
      {content rest : List InlineEvent} (lowerLe : lower ≤ span.start)
      (filled : span.start < span.stop) (inside : Nested content)
      (behind : LaidOut least span.stop upper rest) :
      LaidOut least lower upper ({ span, kind := .enter (.image target title) } ::
        (content ++ { span, kind := .leave .image } :: rest))

theorem LaidOut.inOrder {least lower upper : Nat} {events : List InlineEvent}
    (laid : LaidOut least lower upper events) : lower ≤ upper := by
  induction laid with
  | nil inOrder => exact inOrder
  | single _ lowerLe filled _ ih => omega
  | childless _ lowerLe wide _ ih => omega
  | element _ lowerLe _ _ _ insideIh ih => omega
  | image lowerLe filled _ _ ih => omega

end Markdown.InlineEvent

open Markdown.InlineEvent (Nested LaidOut description)

namespace SourceUnit

/-! ## Units between two positions -/

/-- Where units begin; without units, a position. -/
def firstStart (position : Nat) : List SourceUnit → Nat
  | [] => position
  | first :: _ => first.start

/-- Where units end; without units, a position. -/
def finalStop (position : Nat) : List SourceUnit → Nat
  | [] => position
  | sourceUnit :: rest => finalStop sourceUnit.stop rest

@[simp]
theorem firstStart_nil (position : Nat) : firstStart position [] = position :=
  rfl

@[simp]
theorem firstStart_cons (position : Nat) (first : SourceUnit) (rest : List SourceUnit) :
    firstStart position (first :: rest) = first.start :=
  rfl

@[simp]
theorem finalStop_nil (position : Nat) : finalStop position [] = position :=
  rfl

@[simp]
theorem finalStop_cons (position : Nat) (first : SourceUnit) (rest : List SourceUnit) :
    finalStop position (first :: rest) = finalStop first.stop rest :=
  rfl

@[simp]
theorem finalStop_firstStart (position : Nat) (units : List SourceUnit) :
    finalStop (firstStart position units) units = finalStop position units := by
  cases units <;> rfl

/-- Units end where the last of them does. -/
theorem finalStop_eq_of_getLast? (position : Nat) {units : List SourceUnit} {last : SourceUnit}
    (isLast : units.getLast? = some last) : finalStop position units = last.stop := by
  induction units generalizing position with
  | nil => cases isLast
  | cons first rest ih =>
      cases rest with
      | nil =>
          cases isLast
          rfl
      | cons second rest => exact ih first.stop (by rwa [List.getLast?_cons_cons] at isLast)

/-- Units that are not empty, and lie between two positions. -/
def Within (lower upper : Nat) (units : List SourceUnit) : Prop :=
  ∀ sourceUnit ∈ units, lower ≤ sourceUnit.start ∧ sourceUnit.start < sourceUnit.stop ∧
    sourceUnit.stop ≤ upper

/-- Units of which none reaches into the next one. -/
def AreApart (units : List SourceUnit) : Prop :=
  units.IsChain fun first second => first.stop ≤ second.start

namespace Within

variable {lower middle upper : Nat} {units more : List SourceUnit}

theorem of_le (within : Within middle upper units) (lowerLe : lower ≤ middle) :
    Within lower upper units := by
  intro sourceUnit member
  obtain ⟨middleLe, filled, leUpper⟩ := within sourceUnit member
  exact ⟨Nat.le_trans lowerLe middleLe, filled, leUpper⟩

theorem cons {sourceUnit : SourceUnit} (within : Within sourceUnit.stop upper units)
    (lowerLe : lower ≤ sourceUnit.start) (filled : sourceUnit.start < sourceUnit.stop)
    (leUpper : sourceUnit.stop ≤ upper) : Within lower upper (sourceUnit :: units) :=
  List.forall_mem_cons.mpr ⟨⟨lowerLe, filled, leUpper⟩,
    within.of_le (Nat.le_trans lowerLe (Nat.le_of_lt filled))⟩

theorem append (within : Within lower middle units) (behind : Within middle upper more)
    (lowerLe : lower ≤ middle) (leUpper : middle ≤ upper) :
    Within lower upper (units ++ more) := by
  refine List.forall_mem_append.mpr ⟨fun sourceUnit member => ?_, behind.of_le lowerLe⟩
  obtain ⟨startLe, filled, leMiddle⟩ := within sourceUnit member
  exact ⟨startLe, filled, Nat.le_trans leMiddle leUpper⟩

theorem le_firstStart (within : Within lower upper units) : lower ≤ firstStart lower units := by
  cases units with
  | nil => exact Nat.le_refl lower
  | cons first rest => exact (within first List.mem_cons_self).1

/-- Units in front of a position and units behind it are apart if each of them are. -/
theorem areApart_append_iff (within : Within lower middle units)
    (behind : Within middle upper more) :
    AreApart (units ++ more) ↔ AreApart units ∧ AreApart more := by
  unfold AreApart
  rw [List.isChain_append]
  refine ⟨fun apart => ⟨apart.1, apart.2.1⟩, fun apart => ⟨apart.1, apart.2, ?_⟩⟩
  intro last isLast first isFirst
  exact Nat.le_trans (within last (List.mem_of_getLast? isLast)).2.2
    (behind first (List.mem_of_head? isFirst)).1

end Within

theorem areApart_cons_iff (first : SourceUnit) {upper : Nat} {units : List SourceUnit}
    (within : Within first.stop upper units) : AreApart (first :: units) ↔ AreApart units := by
  cases units with
  | nil => exact iff_of_true (.singleton first) .nil
  | cons second rest =>
      unfold AreApart
      rw [List.isChain_cons_cons]
      exact and_iff_right (within second List.mem_cons_self).1

/-! ## Units that represent events -/

/-- The content of the unit of an event that neither enters nor leaves an element. -/
def contentOf? (source : String) (event : InlineEvent) : Option Content :=
  match event.kind with
  | .text content =>
    let written := Text.slice? source event.span.start event.span.stop
    some (.text content (written == some content))
  | .code content => some (.leaf ((Token.ofKind .codeInline "code" .leaf).withContent content))
  | .html content => some (.leaf ((Token.ofKind .htmlInline "" .leaf).withContent content))
  | .softBreak => some (.leaf (Token.ofKind .softbreak "br" .leaf))
  | .hardBreak => some (.leaf (Token.ofKind .hardbreak "br" .leaf))
  | .enter _ | .leave _ => none

/-- The unit that opens an element ends where the units inside it begin. -/
def opener (element : Element) (span : Span) (inside : List SourceUnit) : SourceUnit :=
  ⟨span.start, firstStart (span.start + 1) inside, .opening (openingToken element)⟩

/-- The unit that closes an element begins where the units inside it end, and has the last byte
of the element in any case. -/
def closer (element : Element) (span : Span) (inside : List SourceUnit) : SourceUnit :=
  ⟨min (finalStop (span.start + 1) inside) (span.stop - 1), span.stop,
    .closing (closingToken element.kind)⟩

/-- The units of an element around those of what stands inside it. -/
def around (element : Element) (span : Span) (inside : List SourceUnit) : List SourceUnit :=
  opener element span inside :: (inside ++ [closer element span inside])

/-- Units that represent events: one for each event that stands alone, and for each that enters
or leaves an element; and one for each image, with everything in it. -/
inductive Represents (source : String) : List InlineEvent → List SourceUnit → Prop where
  | nil : Represents source [] []
  | single {event : InlineEvent} {content : Content} {events : List InlineEvent}
      {units : List SourceUnit} (contentEq : contentOf? source event = some content)
      (behind : Represents source events units) :
      Represents source (event :: events)
        (⟨event.span.start, event.span.stop, content⟩ :: units)
  | element {element : Element} {span : Span} {content events : List InlineEvent}
      {inner units : List SourceUnit} (notImage : element.kind ≠ .image)
      (inside : Represents source content inner) (behind : Represents source events units) :
      Represents source ({ span, kind := .enter element } ::
          (content ++ { span, kind := .leave element.kind } :: events))
        (around element span inner ++ units)
  | image {target title : String} {span : Span} {content events : List InlineEvent}
      {units : List SourceUnit} (inside : Nested content)
      (behind : Represents source events units) :
      Represents source ({ span, kind := .enter (.image target title) } ::
          (content ++ { span, kind := .leave .image } :: events))
        (⟨span.start, span.stop, .leaf (imageToken target title (description content))⟩ ::
          units)

theorem Represents.ne_nil {source : String} {events : List InlineEvent}
    {units : List SourceUnit} (represents : Represents source events units)
    (holds : events ≠ []) : units ≠ [] := by
  cases represents with
  | nil => exact absurd rfl holds
  | single | element | image => exact List.cons_ne_nil _ _

section

variable {element : Element} {span : Span} {inside : List SourceUnit}

/-- The units of an element lie in it if those inside it leave it a byte on both sides. -/
theorem Within.around (within : Within (span.start + 1) (span.stop - 1) inside)
    (filled : span.start < span.stop) :
    Within span.start span.stop (around element span inside) := by
  have opened : span.start < firstStart (span.start + 1) inside ∧
      firstStart (span.start + 1) inside ≤ span.stop := by
    cases inside with
    | nil => exact ⟨Nat.lt_succ_self _, filled⟩
    | cons first rest =>
        have bounds := within first List.mem_cons_self
        rw [firstStart_cons]
        omega
  have closed : span.start ≤ finalStop (span.start + 1) inside := by
    cases found : inside.getLast? with
    | none =>
        rw [List.getLast?_eq_none_iff.mp found]
        exact Nat.le_succ _
    | some last =>
        have bounds := within last (List.mem_of_getLast? found)
        rw [finalStop_eq_of_getLast? _ found]
        omega
  refine List.forall_mem_cons.mpr ⟨⟨Nat.le_refl _, opened⟩, List.forall_mem_append.mpr ⟨?_, ?_⟩⟩
  · intro sourceUnit member
    have bounds := within sourceUnit member
    omega
  · rw [List.forall_mem_singleton]
    exact ⟨by simp only [closer]; omega, by simp only [closer]; omega, Nat.le_refl _⟩

/-- The units of an element that holds something are apart exactly if those inside it are. -/
theorem Within.areApart_around_iff (within : Within (span.start + 1) (span.stop - 1) inside)
    (holds : inside ≠ []) : AreApart (SourceUnit.around element span inside) ↔ AreApart inside := by
  obtain ⟨last, isLast⟩ : ∃ last, inside.getLast? = some last :=
    ⟨_, List.getLast?_eq_some_getLast holds⟩
  have closerStart : last.stop ≤ (closer element span inside).start := by
    have bounds := within last (List.mem_of_getLast? isLast)
    simp only [closer, finalStop_eq_of_getLast? _ isLast]
    omega
  have closed : AreApart (inside ++ [closer element span inside]) ↔ AreApart inside := by
    unfold AreApart
    rw [List.isChain_append]
    refine ⟨fun apart => apart.1, fun apart => ⟨apart, .singleton _, ?_⟩⟩
    simpa [isLast] using closerStart
  rw [← closed]
  cases inside with
  | nil => exact absurd rfl holds
  | cons first rest =>
      unfold AreApart SourceUnit.around
      rw [List.cons_append, List.isChain_cons_cons]
      exact and_iff_right (Nat.le_refl first.start)

/-- The two units of an element that holds nothing are apart exactly if it has two bytes. -/
@[simp]
theorem areApart_around_nil_iff :
    AreApart (around element span []) ↔ span.start + 2 ≤ span.stop := by
  simp only [AreApart, around, opener, closer, List.nil_append, List.isChain_cons_cons,
    List.isChain_singleton, and_true, firstStart_nil, finalStop_nil]
  omega

end

/-! ## Nesting -/

/-- Text and tokens of their own do not matter for the nesting. -/
theorem mark?_of_contentOf? {source : String} {event : InlineEvent} {content : Content}
    (contentEq : contentOf? source event = some content) (start stop : Nat) :
    mark? ⟨start, stop, content⟩ = none := by
  obtain ⟨span, kind⟩ := event
  cases kind <;> cases contentEq <;> rfl

@[simp]
theorem marks_around (element : Element) (span : Span) (inside : List SourceUnit) :
    (around element span inside).filterMap mark? =
      (openingToken element).kind ::
        (inside.filterMap mark? ++ [(closingToken element.kind).kind]) := by
  simp [around, opener, closer, mark?]

/-- Units that represent events are well nested. -/
theorem Represents.wellNested {source : String} {events : List InlineEvent}
    {units : List SourceUnit} (represents : Represents source events units) :
    Token.Kind.WellNested (units.filterMap mark?) := by
  induction represents with
  | nil => rfl
  | single contentEq _ ih => rwa [List.filterMap_cons_none (mark?_of_contentOf? contentEq _ _)]
  | element notImage _ _ insideIh ih =>
      rw [List.filterMap_append, marks_around]
      exact (insideIh.enclosed (role_openingToken notImage) (role_closingToken notImage)).append ih
  | image _ _ ih => rwa [List.filterMap_cons_none rfl]

/-! ## Reading events that are laid out -/

namespace Builder

variable {builder : Builder} {source : String}

/-- A builder with units behind those that it has, the first of which has been settled. -/
def behind (builder : Builder) : List SourceUnit → Builder
  | [] => builder
  | first :: rest =>
    let settled := builder.settle first.start
    { settled with units := rest.reverse ++ first :: settled.units }

@[simp]
theorem behind_image (builder : Builder) (units : List SourceUnit) :
    (builder.behind units).image = builder.image := by
  cases units with
  | nil => rfl
  | cons first rest => exact settle_image builder first.start

@[simp]
theorem settle_source (builder : Builder) (next : Nat) :
    (builder.settle next).source = builder.source := by
  unfold settle
  split <;> rfl

@[simp]
theorem behind_source (builder : Builder) (units : List SourceUnit) :
    (builder.behind units).source = builder.source := by
  cases units with
  | nil => rfl
  | cons first rest => exact settle_source builder first.start

/-- Only the first units behind others are settled by what they begin with. -/
@[simp]
theorem behind_append (builder : Builder) (first second : List SourceUnit) :
    (builder.behind first).behind second = builder.behind (first ++ second) := by
  cases first with
  | nil => rfl
  | cons head rest =>
      cases second with
      | nil => rw [List.append_nil, behind]
      | cons next later =>
          have closed : (builder.behind (head :: rest)).isOpening = false :=
            settle_isOpening builder head.start
          rw [behind, settle_of_closed closed]
          simp [behind]

/-- Events that are read into units, behind whatever units there are. -/
def ReadsInto (source : String) (events : List InlineEvent) (units : List SourceUnit) : Prop :=
  ∀ builder : Builder, builder.image = none → builder.source = source →
    events.foldl step builder = builder.behind units

theorem ReadsInto.foldl_behind {events : List InlineEvent} {units : List SourceUnit}
    (reads : ReadsInto builder.source events units) (noImage : builder.image = none)
    (first : List SourceUnit) :
    events.foldl step (builder.behind first) = builder.behind (first ++ units) := by
  rw [reads _ ((behind_image builder first).trans noImage) (behind_source builder first),
    behind_append]

/-- A unit that is not empty is added as it is. -/
theorem add_eq_behind (builder : Builder) {span : Span} (filled : span.start < span.stop)
    (content : Content) :
    builder.add span content = builder.behind [⟨span.start, span.stop, content⟩] := by
  have stopEq : max span.stop (span.start + 1) = span.stop := Nat.max_eq_left filled
  simp only [add, behind, stopEq, List.reverse_nil, List.nil_append]

theorem stepOutside_of_contentOf? (builder : Builder) {event : InlineEvent} {content : Content}
    (contentEq : contentOf? builder.source event = some content) :
    builder.stepOutside event = builder.add event.span content := by
  obtain ⟨span, kind⟩ := event
  cases kind <;> cases contentEq <;> rfl

theorem exists_contentOf? (source : String) {event : InlineEvent}
    (alone : event.kind.isAlone = true) : ∃ content, contentOf? source event = some content := by
  obtain ⟨span, kind⟩ := event
  cases kind with
  | enter | leave => cases alone
  | _ => exact ⟨_, rfl⟩

@[simp]
theorem lastStop_reverse_append (units before : List SourceUnit) :
    lastStop (units.reverse ++ before) = finalStop (lastStop before) units := by
  induction units generalizing before with
  | nil => rfl
  | cons sourceUnit units ih =>
      rw [List.reverse_cons, List.append_assoc, List.singleton_append, ih]
      rfl

/-- The unit that opens an element ends where what stands inside it begins. -/
theorem settle_behind_enter (builder : Builder) (element : Element) (span : Span)
    {inside : List SourceUnit}
    (opened : span.start + 1 ≤ firstStart (span.start + 1) inside) :
    (((builder.enter span (openingToken element)).behind inside).settle 0) =
      { builder.settle span.start with
        units := inside.reverse ++ opener element span inside :: (builder.settle span.start).units
        ends := span.stop :: builder.ends } := by
  have endsEq := settle_ends builder span.start
  have closed := settle_isOpening builder span.start
  unfold enter opener
  generalize builder.settle span.start = settled at endsEq closed ⊢
  obtain ⟨source, units, ends, isOpening, image⟩ := settled
  cases closed
  cases endsEq
  cases inside with
  | nil => simp only [behind, settle, firstStart, Nat.zero_max, List.reverse_nil, List.nil_append]
  | cons first rest =>
      have stopEq : max first.start (span.start + 1) = first.start := Nat.max_eq_left opened
      simp only [behind, settle, firstStart, stopEq, List.reverse_cons, List.append_assoc,
        List.singleton_append]

/-- What stands inside an element is read between the units that open and close it. -/
theorem leave_behind_enter (builder : Builder) {element : Element} {span : Span}
    {inside : List SourceUnit} (filled : span.start < span.stop)
    (opened : span.start + 1 ≤ firstStart (span.start + 1) inside) :
    ((builder.enter span (openingToken element)).behind inside).leave
        (closingToken element.kind) = builder.behind (around element span inside) := by
  have settled := settle_behind_enter builder element span opened
  have endsEq : ((builder.enter span (openingToken element)).behind inside).ends =
      span.stop :: builder.ends := by
    rw [← settle_ends _ 0, settled]
  have lastEq : lastStop (((builder.enter span (openingToken element)).behind inside).settle
      0).units = finalStop (span.start + 1) inside := by
    rw [settled, lastStop_reverse_append]
    exact finalStop_firstStart (span.start + 1) inside
  rw [leave_eq_min endsEq (Nat.zero_lt_of_lt filled), lastEq, settled,
    ← settle_ends builder span.start]
  simp only [around, behind, opener, closer, List.reverse_append, List.reverse_singleton,
    List.cons_append, List.nil_append]

/-- An element is read into its units, if what stands inside it is read into its own. -/
theorem foldl_element_eq_behind {builder : Builder} (noImage : builder.image = none)
    {element : Element} (notImage : element.kind ≠ .image) {content : List InlineEvent}
    {span : Span} {inside : List SourceUnit} (filled : span.start < span.stop)
    (opened : span.start + 1 ≤ firstStart (span.start + 1) inside)
    (reads : ReadsInto builder.source content inside) :
    (content.foldl step (builder.step { span, kind := .enter element })).step
        { span, kind := .leave element.kind } = builder.behind (around element span inside) := by
  have enteredImage : (builder.enter span (openingToken element)).image = none :=
    (settle_image builder span.start).trans noImage
  have insideImage := (behind_image (builder.enter span (openingToken element)) inside).trans
    enteredImage
  rw [step_of_noImage noImage, stepOutside_enter notImage,
    reads _ enteredImage (settle_source builder span.start), step_of_noImage insideImage,
    stepOutside_leave notImage, leave_behind_enter builder filled opened]

end Builder

/-- Events between two positions that are read into units, which represent them and lie between
the same positions. -/
structure ReadAs (source : String) (lower upper : Nat) (events : List InlineEvent)
    (units : List SourceUnit) : Prop where
  represents : Represents source events units
  within : Within lower upper units
  reads : Builder.ReadsInto source events units

namespace ReadAs

variable {source : String} {lower upper : Nat} {span : Span}
  {content events : List InlineEvent} {inner units : List SourceUnit}

theorem nil : ReadAs source lower upper [] [] :=
  ⟨.nil, nofun, fun _ _ _ => rfl⟩

theorem single {event : InlineEvent} {content : Content}
    (contentEq : contentOf? source event = some content) (lowerLe : lower ≤ event.span.start)
    (filled : event.span.start < event.span.stop) (leUpper : event.span.stop ≤ upper)
    (behind : ReadAs source event.span.stop upper events units) :
    ReadAs source lower upper (event :: events)
      (⟨event.span.start, event.span.stop, content⟩ :: units) := by
  refine ⟨.single contentEq behind.represents, behind.within.cons lowerLe filled leUpper, ?_⟩
  rintro builder noImage rfl
  rw [List.foldl_cons, Builder.step_of_noImage noImage,
    Builder.stepOutside_of_contentOf? builder contentEq, Builder.add_eq_behind builder filled]
  exact behind.reads.foldl_behind noImage _

theorem element {element : Element} (notImage : element.kind ≠ .image)
    (lowerLe : lower ≤ span.start) (filled : span.start < span.stop) (leUpper : span.stop ≤ upper)
    (inside : ReadAs source (span.start + 1) (span.stop - 1) content inner)
    (behind : ReadAs source span.stop upper events units) :
    ReadAs source lower upper ({ span, kind := .enter element } ::
        (content ++ { span, kind := .leave element.kind } :: events))
      (around element span inner ++ units) := by
  have own : Within span.start span.stop (around element span inner) :=
    inside.within.around filled
  refine ⟨.element notImage inside.represents behind.represents,
    (own.append behind.within (Nat.le_of_lt filled) leUpper).of_le lowerLe, ?_⟩
  rintro builder noImage rfl
  rw [Builder.foldl_enclosed, Builder.foldl_element_eq_behind noImage notImage filled
    inside.within.le_firstStart inside.reads]
  exact behind.reads.foldl_behind noImage _

theorem image {target title : String} (lowerLe : lower ≤ span.start)
    (filled : span.start < span.stop) (leUpper : span.stop ≤ upper) (inside : Nested content)
    (behind : ReadAs source span.stop upper events units) :
    ReadAs source lower upper ({ span, kind := .enter (.image target title) } ::
        (content ++ { span, kind := .leave .image } :: events))
      (⟨span.start, span.stop, .leaf (imageToken target title (description content))⟩ ::
        units) := by
  refine ⟨.image inside behind.represents, behind.within.cons lowerLe filled leUpper, ?_⟩
  rintro builder noImage rfl
  rw [Builder.foldl_enclosed, Builder.foldl_image noImage inside, Builder.addLeaf,
    Builder.add_eq_behind builder filled]
  exact behind.reads.foldl_behind noImage _

theorem ofEvents_eq (readAs : ReadAs source lower upper events units) :
    ofEvents source events = units := by
  rw [ofEvents, readAs.reads { source } rfl rfl, Builder.finish, Builder.behind_image]
  cases units with
  | nil => rfl
  | cons first rest => simp [Builder.behind, Builder.settle]

end ReadAs

/-- Events that are laid out are read.  Their units are apart if every element that holds
nothing has two bytes, and only then. -/
theorem exists_readAs (source : String) {least lower upper : Nat} (positive : 0 < least)
    {events : List InlineEvent} (laid : LaidOut least lower upper events) :
    ∃ units, ReadAs source lower upper events units ∧ (2 ≤ least → AreApart units) ∧
      (AreApart units → LaidOut 2 lower upper events) := by
  induction laid with
  | nil inOrder => exact ⟨[], .nil, fun _ => .nil, fun _ => .nil inOrder⟩
  | @single _ _ event _ alone lowerLe filled behind ih =>
      obtain ⟨units, readAs, apart, wide⟩ := ih
      obtain ⟨content, contentEq⟩ := Builder.exists_contentOf? source alone
      have split := areApart_cons_iff ⟨event.span.start, event.span.stop, content⟩ readAs.within
      exact ⟨_, readAs.single contentEq lowerLe filled behind.inOrder,
        fun two => split.mpr (apart two),
        fun areApart => .single alone lowerLe filled (wide (split.mp areApart))⟩
  | @childless _ _ element span _ notImage lowerLe enough behind ih =>
      obtain ⟨units, readAs, apart, wide⟩ := ih
      have filled : span.start < span.stop := by omega
      have nothing : Within (span.start + 1) (span.stop - 1) [] := nofun
      have own : Within span.start span.stop (around element span []) := nothing.around filled
      have split := own.areApart_append_iff readAs.within
      rw [areApart_around_nil_iff] at split
      exact ⟨_, .element notImage lowerLe filled behind.inOrder .nil readAs,
        fun two => split.mpr ⟨by omega, apart two⟩,
        fun areApart =>
          .childless notImage lowerLe (split.mp areApart).1 (wide (split.mp areApart).2)⟩
  | @element _ _ element span _ _ notImage lowerLe holds insideLaid behind insideIh ih =>
      obtain ⟨inner, inside, insideApart, insideWide⟩ := insideIh
      obtain ⟨units, readAs, apart, wide⟩ := ih
      have inOrder := insideLaid.inOrder
      have filled : span.start < span.stop := by omega
      have own : Within span.start span.stop (around element span inner) :=
        inside.within.around filled
      have split := own.areApart_append_iff readAs.within
      rw [inside.within.areApart_around_iff (inside.represents.ne_nil holds)] at split
      exact ⟨_, .element notImage lowerLe filled behind.inOrder inside readAs,
        fun two => split.mpr ⟨insideApart two, apart two⟩,
        fun areApart => .element notImage lowerLe holds (insideWide (split.mp areApart).1)
          (wide (split.mp areApart).2)⟩
  | @image _ _ target title span content _ lowerLe filled inside behind ih =>
      obtain ⟨units, readAs, apart, wide⟩ := ih
      have split := areApart_cons_iff
        ⟨span.start, span.stop, .leaf (imageToken target title (description content))⟩
        readAs.within
      exact ⟨_, readAs.image lowerLe filled behind.inOrder inside,
        fun two => split.mpr (apart two),
        fun areApart => .image lowerLe filled inside (wide (split.mp areApart))⟩

/-- The units of events that are laid out are not empty, lie in the range of the events, have
tokens of the roles that they give them, are well nested, and represent the events: one unit for
each of them, but for what an image holds.  None reaches into the next one exactly if every
element that holds nothing has at least two bytes. -/
theorem ofEvents_laidOut (source : String) {span : Span} {events : List InlineEvent}
    (laid : LaidOut 1 span.start span.stop events) :
    let units := ofEvents source events
    (∀ sourceUnit ∈ units, sourceUnit.start < sourceUnit.stop) ∧
      (∀ sourceUnit ∈ units, span.start ≤ sourceUnit.start ∧ sourceUnit.stop ≤ span.stop) ∧
      (LaidOut 2 span.start span.stop events ↔
        units.IsChain fun first second => first.stop ≤ second.start) ∧
      (∀ sourceUnit ∈ units, sourceUnit.Fits) ∧
      Token.Kind.WellNested (units.filterMap mark?) ∧
      Represents source events units := by
  obtain ⟨units, readAs, -, wide⟩ := exists_readAs source (Nat.zero_lt_one) laid
  have fits := fits_ofEvents source events
  rw [readAs.ofEvents_eq] at fits ⊢
  refine ⟨fun sourceUnit member => (readAs.within sourceUnit member).2.1,
    fun sourceUnit member => ?_, ⟨fun laidWide => ?_, wide⟩, fits,
    readAs.represents.wellNested, readAs.represents⟩
  · obtain ⟨lowerLe, -, leUpper⟩ := readAs.within sourceUnit member
    exact ⟨lowerLe, leUpper⟩
  · obtain ⟨others, otherReadAs, apart, -⟩ := exists_readAs source Nat.zero_lt_two laidWide
    have same : others = units := otherReadAs.ofEvents_eq.symm.trans readAs.ofEvents_eq
    exact same ▸ apart (Nat.le_refl 2)

/-- An image in emphasis, with emphasis in its text, and a link around nothing. -/
def imageInEmphasis : List InlineEvent :=
  [⟨⟨0, 2⟩, .text "a "⟩, ⟨⟨2, 15⟩, .enter .emphasis⟩, ⟨⟨3, 14⟩, .enter (.image "d" "")⟩,
    ⟨⟨5, 7⟩, .text "b "⟩, ⟨⟨7, 10⟩, .enter .emphasis⟩, ⟨⟨8, 9⟩, .text "c"⟩,
    ⟨⟨7, 10⟩, .leave .emphasis⟩, ⟨⟨3, 14⟩, .leave .image⟩, ⟨⟨2, 15⟩, .leave .emphasis⟩,
    ⟨⟨15, 20⟩, .enter (.link "e" "")⟩, ⟨⟨15, 20⟩, .leave .link⟩]

theorem laidOut_imageInEmphasis {least : Nat} (enough : least ≤ 5) :
    LaidOut least 0 20 imageInEmphasis := by
  have inside : Nested [⟨⟨5, 7⟩, .text "b "⟩, ⟨⟨7, 10⟩, .enter .emphasis⟩,
      ⟨⟨8, 9⟩, .text "c"⟩, ⟨⟨7, 10⟩, .leave .emphasis⟩] :=
    .single rfl (.element (.single rfl .nil) .nil)
  have image := @LaidOut.image least 3 14 "d" "" ⟨3, 14⟩ _ [] (by decide) (by decide) inside
    (.nil (Nat.le_refl 14))
  have link := @LaidOut.childless least 15 20 (.link "e" "") ⟨15, 20⟩ [] nofun (by decide)
    (by simp only; omega) (.nil (Nat.le_refl 20))
  refine .single rfl (by decide) (by decide)
    (@LaidOut.element least 2 20 .emphasis ⟨2, 15⟩ _ _ nofun (by decide) ?_ image link)
  exact List.cons_ne_nil _ _

theorem ofEvents_laidOut_imageInEmphasis :
    let units := ofEvents "a *![b *c*](d)*[](e)" imageInEmphasis
    LaidOut 1 0 20 imageInEmphasis ∧ LaidOut 2 0 20 imageInEmphasis ∧
      units.map (fun sourceUnit => (sourceUnit.start, sourceUnit.stop)) =
        [(0, 2), (2, 3), (3, 14), (14, 15), (15, 16), (16, 20)] ∧
      (units.IsChain fun first second => first.stop ≤ second.start) ∧
      units.filterMap mark? = [.emOpen, .emClose, .linkOpen, .linkClose] ∧
      Token.Kind.WellNested (units.filterMap mark?) ∧
      Represents "a *![b *c*](d)*[](e)" imageInEmphasis units := by
  have laid : LaidOut 1 (Span.mk 0 20).start (Span.mk 0 20).stop imageInEmphasis :=
    laidOut_imageInEmphasis (by decide)
  have wide : LaidOut 2 0 20 imageInEmphasis := laidOut_imageInEmphasis (by decide)
  obtain ⟨_, _, apart, _, nested, represents⟩ :=
    ofEvents_laidOut "a *![b *c*](d)*[](e)" laid
  exact ⟨laid, wide, rfl, apart.mp wide, rfl, nested, represents⟩

/-- An element of a single byte is opened and closed by that byte. -/
theorem ofEvents_overlap_singleByte :
    let events : List InlineEvent := [⟨⟨0, 1⟩, .enter .emphasis⟩, ⟨⟨0, 1⟩, .leave .emphasis⟩]
    LaidOut 1 0 1 events ∧
      (∀ event ∈ events, Text.isBoundary "*" event.span.start = true ∧
        Text.isBoundary "*" event.span.stop = true) ∧
      ¬ (ofEvents "*" events).IsChain fun first second => first.stop ≤ second.start := by
  intro events
  have laid : LaidOut 1 0 1 events :=
    @LaidOut.childless 1 0 1 .emphasis ⟨0, 1⟩ [] nofun (Nat.le_refl 0) (Nat.le_refl 1)
      (.nil (Nat.le_refl 1))
  exact ⟨laid, by decide, by decide⟩

end SourceUnit

end WikiPress
