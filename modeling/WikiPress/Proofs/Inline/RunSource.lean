import WikiPress.Proofs.Inline.Images
import WikiPress.Proofs.Inline.Pieces

/-!
# The source of a run

The events of running text fill their source: each begins where the one before ends, but for
the backslash of an escape, which stands in front of the text that it escapes.  An element has
its marks around what stands inside it.

The source of a run is put together from its units and from what lies between them.  Behind a
line break, this is left out, as marks of containers stand there; and the run begins with its
first unit.  So the source of the run is all that the events fill, without the backslashes of
the escapes with which lines begin.
-/

namespace WikiPress

open Markdown

/-! ## Events that fill a source -/

namespace Markdown.InlineEvent

/-- Whether an event stands alone and is no line break. -/
def Kind.isLeaf : Kind → Bool
  | .text _ | .code _ | .html _ => true
  | _ => false

theorem Kind.isAlone_of_isLeaf {kind : Kind} (isLeaf : kind.isLeaf = true) :
    kind.isAlone = true := by
  cases kind with
  | enter | leave => cases isLeaf
  | _ => rfl

/-- Events that fill a source from a position on to another one, with the positions of the
backslashes of the escapes with which lines begin.  `isFresh` says whether a line begins at the
first position.  In an image, and behind the mark that opens an element, no line begins. -/
inductive Tile (source : String) : (isFresh : Bool) → (start stop : Nat) → List InlineEvent →
    (escapes : List Nat) → Prop where
  | nil {isFresh : Bool} {stop : Nat} (atStop : Text.isBoundary source stop = true) :
      Tile source isFresh stop stop [] []
  | leaf {isFresh : Bool} {start next stop : Nat} {kind : Kind} {rest : List InlineEvent}
      {escapes : List Nat} (atStart : Text.isBoundary source start = true) (later : start < next)
      (isLeaf : kind.isLeaf = true) (behind : Tile source false next stop rest escapes) :
      Tile source isFresh start stop ({ span := ⟨start, next⟩, kind } :: rest) escapes
  | escape {isFresh : Bool} {start next stop : Nat} {content : String}
      {rest : List InlineEvent} {escapes : List Nat}
      (backslash : Text.byteAt? source start = some '\\') (later : start + 1 < next)
      (behind : Tile source false next stop rest escapes) :
      Tile source isFresh start stop
        ({ span := ⟨start + 1, next⟩, kind := .text content } :: rest)
        ((if isFresh then [start] else []) ++ escapes)
  | lineBreak {isFresh : Bool} {start stop : Nat} {rest : List InlineEvent} {escapes : List Nat}
      (newline : Text.byteAt? source start = some '\n')
      (behind : Tile source true (start + 1) stop rest escapes) :
      Tile source isFresh start stop
        ({ span := ⟨start, start + 1⟩, kind := .softBreak } :: rest) escapes
  | element {isFresh : Bool} {start first last next stop : Nat} {element : Element}
      {content rest : List InlineEvent} {inner escapes : List Nat}
      (notImage : element.kind ≠ .image) (atStart : Text.isBoundary source start = true)
      (atMark : Text.isBoundary source (start + 1) = true) (opened : start < first)
      (inside : Tile source false first last content inner) (closed : last < next)
      (behind : Tile source false next stop rest escapes) :
      Tile source isFresh start stop
        ({ span := ⟨start, next⟩, kind := .enter element } ::
          (content ++ { span := ⟨start, next⟩, kind := .leave element.kind } :: rest))
        (inner ++ escapes)
  | image {isFresh : Bool} {start first last next stop : Nat} {target title : String}
      {content rest : List InlineEvent} {inner escapes : List Nat}
      (atStart : Text.isBoundary source start = true) (opened : start < first)
      (inside : Tile source false first last content inner) (closed : last < next)
      (behind : Tile source false next stop rest escapes) :
      Tile source isFresh start stop
        ({ span := ⟨start, next⟩, kind := .enter (.image target title) } ::
          (content ++ { span := ⟨start, next⟩, kind := .leave .image } :: rest))
        escapes

end Markdown.InlineEvent

open Markdown.InlineEvent (Tile)

/-! ## A source without backslashes -/

namespace Text

/-- The text between two positions without the bytes at some positions between them. -/
def sliceWithout (text : String) (stop : Nat) : (start : Nat) → List Nat → String
  | start, [] => slice text start stop
  | start, position :: positions =>
    slice text start position ++ sliceWithout text stop (position + 1) positions

/-- Positions of backslashes in a range, one behind the other. -/
inductive AreBackslashes (text : String) (stop : Nat) : (start : Nat) → List Nat → Prop where
  | nil {start : Nat} (inOrder : start ≤ stop) : AreBackslashes text stop start []
  | cons {start position : Nat} {positions : List Nat} (startLe : start ≤ position)
      (backslash : byteAt? text position = some '\\')
      (behind : AreBackslashes text stop (position + 1) positions) :
      AreBackslashes text stop start (position :: positions)

variable {text : String} {start middle stop : Nat} {positions more : List Nat}

theorem AreBackslashes.inOrder (backslashes : AreBackslashes text stop start positions) :
    start ≤ stop := by
  induction backslashes with
  | nil inOrder => exact inOrder
  | cons startLe _ _ ih => omega

theorem AreBackslashes.of_le (backslashes : AreBackslashes text stop middle positions)
    (startLe : start ≤ middle) : AreBackslashes text stop start positions := by
  cases backslashes with
  | nil inOrder => exact .nil (Nat.le_trans startLe inOrder)
  | cons middleLe backslash behind =>
      exact .cons (Nat.le_trans startLe middleLe) backslash behind

theorem AreBackslashes.append (backslashes : AreBackslashes text middle start positions)
    (behind : AreBackslashes text stop middle more) :
    AreBackslashes text stop start (positions ++ more) := by
  induction backslashes with
  | nil inOrder => exact behind.of_le inOrder
  | cons startLe backslash _ ih => exact .cons startLe backslash ih

theorem AreBackslashes.of_mem (backslashes : AreBackslashes text stop start positions) :
    ∀ position ∈ positions, position < stop ∧ byteAt? text position = some '\\' := by
  induction backslashes with
  | nil => simp
  | cons _ backslash behind ih =>
      intro position member
      rcases List.mem_cons.mp member with rfl | later
      · exact ⟨behind.inOrder, backslash⟩
      · exact ih position later

/-- Both sides of a backslash are boundaries. -/
theorem boundaries_of_backslash {position : Nat}
    (backslash : byteAt? text position = some '\\') :
    isBoundary text position = true ∧ isBoundary text (position + 1) = true :=
  WikiLink.boundaries_of_byteAt? backslash (by decide)

/-- What stands in front of a range without backslashes can be put before it. -/
theorem slice_append_sliceWithout (atStart : isBoundary text start = true)
    (atMiddle : isBoundary text middle = true) (atStop : isBoundary text stop = true)
    (startLe : start ≤ middle) (backslashes : AreBackslashes text stop middle positions) :
    slice text start middle ++ sliceWithout text stop middle positions =
      sliceWithout text stop start positions := by
  cases backslashes with
  | nil inOrder => exact SourceUnit.slice_split atStart atMiddle atStop startLe inOrder
  | cons middleLe backslash _ =>
      have atBackslash := (boundaries_of_backslash backslash).1
      rw [sliceWithout, sliceWithout, ← String.append_assoc,
        SourceUnit.slice_split atStart atMiddle atBackslash startLe middleLe]

theorem sliceWithout_append (atStart : isBoundary text start = true)
    (atMiddle : isBoundary text middle = true) (atStop : isBoundary text stop = true)
    (backslashes : AreBackslashes text middle start positions)
    (behind : AreBackslashes text stop middle more) :
    sliceWithout text middle start positions ++ sliceWithout text stop middle more =
      sliceWithout text stop start (positions ++ more) := by
  induction backslashes with
  | nil inOrder => exact slice_append_sliceWithout atStart atMiddle atStop inOrder behind
  | cons startLe backslash _ ih =>
      rw [List.cons_append, sliceWithout, sliceWithout, String.append_assoc,
        ih (boundaries_of_backslash backslash).2]

/-- Every backslash is one byte less. -/
theorem utf8ByteSize_sliceWithout (atStart : isBoundary text start = true)
    (atStop : isBoundary text stop = true)
    (backslashes : AreBackslashes text stop start positions) :
    (sliceWithout text stop start positions).utf8ByteSize + positions.length + start = stop := by
  have sizeOf {start stop : Nat} (atStart : isBoundary text start = true)
      (atStop : isBoundary text stop = true) (inOrder : start ≤ stop) :
      (slice text start stop).utf8ByteSize + start = stop := by
    obtain ⟨before, behind, splits⟩ := isBoundary_iff.mp atStart
    obtain ⟨middle, rest, rfl, rfl⟩ := splits.exists_middle atStop inOrder
    rw [splits.slice_eq, ← byteLength_toList, String.toList_ofList, Nat.add_comm]
  induction backslashes with
  | nil inOrder => exact sizeOf atStart atStop inOrder
  | cons startLe backslash _ ih =>
      obtain ⟨atBackslash, behindBackslash⟩ := boundaries_of_backslash backslash
      have size := sizeOf atStart atBackslash startLe
      have rest := ih behindBackslash
      rw [sliceWithout, String.utf8ByteSize_append, List.length_cons]
      omega

/-- Without backslashes that are left out, the whole range stays, and only then. -/
theorem sliceWithout_eq_slice_iff (atStart : isBoundary text start = true)
    (atStop : isBoundary text stop = true)
    (backslashes : AreBackslashes text stop start positions) :
    sliceWithout text stop start positions = slice text start stop ↔ positions = [] := by
  constructor
  · intro complete
    have size := utf8ByteSize_sliceWithout atStart atStop backslashes
    have whole := utf8ByteSize_sliceWithout atStart atStop (.nil backslashes.inOrder)
    rw [complete] at size
    rw [sliceWithout, List.length_nil] at whole
    exact List.length_eq_zero_iff.mp (by omega)
  · rintro rfl
    rfl

end Text

open Text (AreBackslashes sliceWithout)

namespace Markdown.InlineEvent.Tile

variable {source : String} {isFresh : Bool} {start stop : Nat} {events : List InlineEvent}
  {escapes : List Nat}

theorem boundaries (tile : Tile source isFresh start stop events escapes) :
    Text.isBoundary source start = true ∧ Text.isBoundary source stop = true := by
  induction tile with
  | nil atStop => exact ⟨atStop, atStop⟩
  | leaf atStart _ _ _ ih => exact ⟨atStart, ih.2⟩
  | escape backslash _ _ ih => exact ⟨(Text.boundaries_of_backslash backslash).1, ih.2⟩
  | lineBreak newline _ ih =>
      exact ⟨(WikiLink.boundaries_of_byteAt? newline (by decide)).1, ih.2⟩
  | element _ atStart _ _ _ _ _ _ ih => exact ⟨atStart, ih.2⟩
  | image atStart _ _ _ _ _ ih => exact ⟨atStart, ih.2⟩

/-- The escapes with which lines begin are backslashes of what is filled. -/
theorem areBackslashes (tile : Tile source isFresh start stop events escapes) :
    AreBackslashes source stop start escapes := by
  induction tile with
  | nil => exact .nil (Nat.le_refl _)
  | leaf _ later _ _ ih => exact ih.of_le (Nat.le_of_lt later)
  | @escape isFresh _ _ _ _ _ _ backslash later _ ih =>
      cases isFresh with
      | true => exact .cons (Nat.le_refl _) backslash (ih.of_le (Nat.le_of_lt later))
      | false => exact ih.of_le (by omega)
  | lineBreak _ _ ih => exact ih.of_le (Nat.le_succ _)
  | element _ _ _ opened _ closed _ insideIh ih =>
      exact (insideIh.of_le (Nat.le_of_lt opened)).append (ih.of_le (Nat.le_of_lt closed))
  | image _ opened inside closed _ insideIh ih =>
      have inOrder := insideIh.inOrder
      exact ih.of_le (by omega)

/-- What stands in front of events belongs to what they fill. -/
theorem slice_append {before : Nat} (tile : Tile source isFresh start stop events escapes)
    (atBefore : Text.isBoundary source before = true) (inOrder : before ≤ start) :
    Text.slice source before start ++ sliceWithout source stop start escapes =
      sliceWithout source stop before escapes :=
  Text.slice_append_sliceWithout atBefore tile.boundaries.1 tile.boundaries.2 inOrder
    tile.areBackslashes

/-- The escapes with which lines begin stand where a line begins. -/
theorem lineBegins_of_mem (tile : Tile source isFresh start stop events escapes) :
    ∀ position ∈ escapes, (isFresh = true ∧ position = start) ∨
      ∃ newline, position = newline + 1 ∧ Text.byteAt? source newline = some '\n' := by
  induction tile with
  | nil => simp
  | leaf _ _ _ _ ih => exact fun position member => .inr (by simpa using ih position member)
  | @escape isFresh _ _ _ _ _ _ _ _ _ ih =>
      intro position member
      rcases List.mem_append.mp member with first | behind
      · cases isFresh with
        | true => exact .inl ⟨rfl, List.mem_singleton.mp first⟩
        | false => cases first
      · exact .inr (by simpa using ih position behind)
  | lineBreak newline _ ih =>
      intro position member
      rcases ih position member with ⟨_, rfl⟩ | later
      · exact .inr ⟨_, rfl, newline⟩
      · exact .inr later
  | element _ _ _ _ _ _ _ insideIh ih =>
      intro position member
      rcases List.mem_append.mp member with inside | behind
      · exact .inr (by simpa using insideIh position inside)
      · exact .inr (by simpa using ih position behind)
  | image _ _ _ _ _ _ ih => exact fun position member => .inr (by simpa using ih position member)

theorem nested (tile : Tile source isFresh start stop events escapes) :
    InlineEvent.Nested events := by
  induction tile with
  | nil => exact .nil
  | leaf _ _ isLeaf _ ih => exact .single (InlineEvent.Kind.isAlone_of_isLeaf isLeaf) ih
  | escape _ _ _ ih => exact .single rfl ih
  | lineBreak _ _ ih => exact .single rfl ih
  | element _ _ _ _ _ _ _ insideIh ih => exact .element insideIh ih
  | @image _ _ _ _ _ _ target title _ _ _ _ _ _ _ _ _ insideIh ih =>
      exact @InlineEvent.Nested.element (.image target title) _ _ _ insideIh ih

end Markdown.InlineEvent.Tile

namespace SourceUnit

/-! ## Units behind units -/

/-- Whether a line begins behind units, the last of which comes first. -/
def lineBegins : List SourceUnit → Bool
  | [] => true
  | last :: _ => last.isBreak

/-- Where units end, the last of which comes first. -/
def lastStop : List SourceUnit → Nat
  | [] => 0
  | last :: _ => last.stop

/-- What is read between two positions: nothing, if a line begins at the first one. -/
def gap (source : String) (isFresh : Bool) (start stop : Nat) : String :=
  if isFresh then "" else Text.slice source start stop

/-- What is read of a unit itself. -/
def own (source : String) (sourceUnit : SourceUnit) : String :=
  if sourceUnit.isBreak then "\n" else Text.slice source sourceUnit.start sourceUnit.stop

variable {source : String} {units : List SourceUnit} {next : SourceUnit}

theorem gap_self {position : Nat} (atPosition : Text.isBoundary source position = true)
    (isFresh : Bool) : gap source isFresh position position = "" := by
  rw [gap, Text.slice_self atPosition, ite_self]

/-- The backslash of an escape is not read where a line begins. -/
theorem gap_append_sliceWithout {isFresh : Bool} {start stop : Nat} {escapes : List Nat}
    (backslash : Text.byteAt? source start = some '\\')
    (atStop : Text.isBoundary source stop = true)
    (behind : AreBackslashes source stop (start + 1) escapes) :
    gap source isFresh start (start + 1) ++ sliceWithout source stop (start + 1) escapes =
      sliceWithout source stop start ((if isFresh then [start] else []) ++ escapes) := by
  obtain ⟨atStart, atNext⟩ := Text.boundaries_of_backslash backslash
  cases isFresh with
  | true => simp [gap, sliceWithout, Text.slice_self atStart]
  | false => exact Text.slice_append_sliceWithout atStart atNext atStop (Nat.le_succ _) behind

theorem contentBehind_append (source : String) (previous : SourceUnit)
    (before : List SourceUnit) (last : SourceUnit) (behind : List SourceUnit) :
    contentBehind source previous (before ++ last :: behind) =
      contentBehind source previous (before ++ [last]) ++ contentBehind source last behind := by
  induction before generalizing previous with
  | nil => simp [contentBehind]
  | cons sourceUnit before ih => simp [contentBehind, ih, String.append_assoc]

theorem runContent_append (source : String) (before : List SourceUnit) (last : SourceUnit)
    (behind : List SourceUnit) :
    runContent source (before ++ last :: behind) =
      runContent source (before ++ [last]) ++ contentBehind source last behind := by
  cases before with
  | nil => simp [runContent, contentBehind]
  | cons first before =>
      simp only [List.cons_append, runContent, contentBehind_append source first before last behind,
        String.append_assoc]

/-- One more unit adds what lies in front of it, unless a line begins there, and its own
source. -/
theorem runContent_reverse_cons (inOrder : lastStop units ≤ next.start)
    (filled : next.start ≤ next.stop)
    (atLast : Text.isBoundary source (lastStop units) = true)
    (atStart : Text.isBoundary source next.start = true)
    (atStop : Text.isBoundary source next.stop = true) :
    runContent source (next :: units).reverse =
      runContent source units.reverse ++
        gap source (lineBegins units) (lastStop units) next.start ++ own source next := by
  have ownEq := Text.slice?_eq_some atStart atStop filled
  unfold own gap
  cases units with
  | nil => simp [runContent, contentBehind, lineBegins, ownEq]
  | cons last rest =>
      have gapEq := Text.slice?_eq_some atLast atStart inOrder
      have joined : (next :: last :: rest).reverse = rest.reverse ++ last :: [next] := by simp
      rw [joined, runContent_append, List.reverse_cons, String.append_assoc]
      congr 1
      simp only [lastStop] at inOrder atLast gapEq
      simp only [contentBehind, lineBegins, lastStop, Nat.max_eq_left inOrder, ownEq, gapEq,
        Option.getD_some, String.append_empty]
      by_cases isBreak : last.isBreak = true
      · simp [isBreak]
      · rcases Nat.eq_or_lt_of_le inOrder with same | later
        · simp [isBreak, same, Text.slice_self atStart]
        · simp [isBreak, later]

/-! ## Reading events -/

namespace Builder

/-- What has been read up to a position: whatever begins there or behind it is added to a
content, and an element that is left there is closed behind it. -/
structure ReadTo (source : String) (builder : Builder) (isFresh : Bool) (position : Nat)
    (content : String) : Prop where
  noImage : builder.image = none
  settled : ∀ next, position ≤ next → Text.isBoundary source next = true →
    lastStop (builder.settle next).units ≤ next ∧
    Text.isBoundary source (lastStop (builder.settle next).units) = true ∧
    runContent source (builder.settle next).units.reverse ++
        gap source (lineBegins (builder.settle next).units)
          (lastStop (builder.settle next).units) next =
      content ++ gap source isFresh position next
  reached : lastStop (builder.settle 0).units ≤ position ∧
    Text.isBoundary source (lastStop (builder.settle 0).units) = true ∧
    runContent source (builder.settle 0).units.reverse ++
        Text.slice source (lastStop (builder.settle 0).units) position = content
  closed : builder.isOpening = false → lastStop builder.units = position

variable {builder : Builder} {isFresh : Bool} {position : Nat} {content : String} {span : Span}

theorem settle_of_closed (closed : builder.isOpening = false) (next : Nat) :
    builder.settle next = builder := by
  obtain ⟨source, units, ends, isOpening, image⟩ := builder
  cases closed
  rfl

/-- If no unit waits for the next one, all units have been read. -/
theorem ReadTo.of_closed (noImage : builder.image = none) (closed : builder.isOpening = false)
    (atLast : Text.isBoundary source (lastStop builder.units) = true) :
    ReadTo source builder (lineBegins builder.units) (lastStop builder.units)
      (runContent source builder.units.reverse) := by
  constructor
  case noImage => exact noImage
  case settled =>
    intro next behind _
    rw [settle_of_closed closed]
    exact ⟨behind, atLast, rfl⟩
  case reached =>
    rw [settle_of_closed closed, Text.slice_self atLast, String.append_empty]
    exact ⟨Nat.le_refl _, atLast, rfl⟩
  case closed => exact fun _ => rfl

theorem ReadTo.of_units (noImage : builder.image = none) (closed : builder.isOpening = false)
    (unitsEq : builder.units = next :: units)
    (atStop : Text.isBoundary source next.stop = true) :
    ReadTo source builder next.isBreak next.stop (runContent source (next :: units).reverse) := by
  have readTo := ReadTo.of_closed noImage closed
    (by rw [unitsEq]; exact atStop : Text.isBoundary source (lastStop builder.units) = true)
  rwa [unitsEq] at readTo

theorem ReadTo.runContent_eq (readTo : ReadTo source builder isFresh position content)
    (closed : builder.isOpening = false) : runContent source builder.units.reverse = content := by
  obtain ⟨_, atLast, contentEq⟩ := readTo.reached
  have touching := readTo.closed closed
  rw [settle_of_closed closed] at atLast contentEq
  rw [touching] at atLast contentEq
  rwa [Text.slice_self atLast, String.append_empty] at contentEq

/-- One more unit behind what has been read. -/
theorem ReadTo.runContent_next (readTo : ReadTo source builder isFresh position content)
    (next : SourceUnit) (behind : position ≤ next.start) (filled : next.start ≤ next.stop)
    (atStart : Text.isBoundary source next.start = true)
    (atStop : Text.isBoundary source next.stop = true) :
    runContent source (next :: (builder.settle next.start).units).reverse =
      content ++ gap source isFresh position next.start ++ own source next := by
  obtain ⟨inOrder, atLast, read⟩ := readTo.settled next.start behind atStart
  rw [runContent_reverse_cons inOrder filled atLast atStart atStop, read]

@[simp]
theorem settle_isOpening (builder : Builder) (next : Nat) :
    (builder.settle next).isOpening = false := by
  unfold settle
  split <;> rfl

@[simp]
theorem settle_image (builder : Builder) (next : Nat) :
    (builder.settle next).image = builder.image := by
  unfold settle
  split <;> rfl

@[simp]
theorem settle_ends (builder : Builder) (next : Nat) :
    (builder.settle next).ends = builder.ends := by
  unfold settle
  split <;> rfl

/-- A unit that fills its range. -/
theorem ReadTo.add (readTo : ReadTo source builder isFresh position content) (span : Span)
    (behind : position ≤ span.start) (filled : span.start < span.stop)
    (atStart : Text.isBoundary source span.start = true)
    (atStop : Text.isBoundary source span.stop = true) (unitContent : Content) :
    ReadTo source (builder.add span unitContent) (isBreak ⟨span.start, span.stop, unitContent⟩)
      span.stop (content ++ gap source isFresh position span.start ++
        own source ⟨span.start, span.stop, unitContent⟩) := by
  have stopEq : max span.stop (span.start + 1) = span.stop := Nat.max_eq_left filled
  have unitsEq : (builder.add span unitContent).units =
      ⟨span.start, span.stop, unitContent⟩ :: (builder.settle span.start).units := by
    simp [Builder.add, stopEq]
  have read := readTo.runContent_next ⟨span.start, span.stop, unitContent⟩ behind
    (Nat.le_of_lt filled) atStart atStop
  rw [← read]
  exact .of_units ((settle_image builder span.start).trans readTo.noImage)
    (settle_isOpening builder span.start) unitsEq atStop

/-- Where an element is entered, its first unit ends behind the mark that opens it. -/
theorem ReadTo.enter (readTo : ReadTo source builder isFresh span.start content)
    (atStart : Text.isBoundary source span.start = true)
    (atMark : Text.isBoundary source (span.start + 1) = true) {first : Nat}
    (opened : span.start < first) (atFirst : Text.isBoundary source first = true)
    (token : Token) :
    ReadTo source (builder.enter span token) false first
      (content ++ Text.slice source span.start first) := by
  have read {stop : Nat} (opened : span.start < stop)
      (atStop : Text.isBoundary source stop = true) :
      runContent source ({ start := span.start, stop, content := .opening token } ::
        (builder.settle span.start).units).reverse =
          content ++ Text.slice source span.start stop := by
    have next := readTo.runContent_next ⟨span.start, stop, .opening token⟩ (Nat.le_refl _)
      (Nat.le_of_lt opened) atStart atStop
    rwa [gap_self atStart, String.append_empty] at next
  have unitsAt (next : Nat) : ((builder.enter span token).settle next).units =
      { start := span.start, stop := max next (span.start + 1), content := .opening token } ::
        (builder.settle span.start).units := rfl
  constructor
  case noImage => exact (settle_image builder span.start).trans readTo.noImage
  case settled =>
    intro next behind atNext
    have stopEq : max next (span.start + 1) = next := Nat.max_eq_left (by omega)
    rw [unitsAt, stopEq]
    refine ⟨Nat.le_refl _, atNext, ?_⟩
    rw [lastStop, gap_self atNext, String.append_empty, read (by omega) atNext,
      String.append_assoc]
    exact congrArg (content ++ ·)
      (slice_split atStart atFirst atNext (Nat.le_of_lt opened) behind).symm
  case reached =>
    have stopEq : max 0 (span.start + 1) = span.start + 1 := Nat.zero_max _
    rw [unitsAt, stopEq]
    refine ⟨opened, atMark, ?_⟩
    rw [lastStop, read (Nat.lt_succ_self _) atMark, String.append_assoc,
      slice_split atStart atMark atFirst (Nat.le_succ _) opened]
  case closed => exact nofun

/-- The last unit of an element begins where the unit in front of it ends, and in front of the
last byte of the element in any case. -/
theorem leave_eq_min {stop : Nat} {ends : List Nat} (endsEq : builder.ends = stop :: ends)
    (filled : 0 < stop) (token : Token) :
    builder.leave token = { builder.settle 0 with
      units := { start := min (lastStop (builder.settle 0).units) (stop - 1), stop,
                 content := .closing token } :: (builder.settle 0).units
      ends } := by
  have settledEnds := (settle_ends builder 0).trans endsEq
  unfold Builder.leave
  generalize builder.settle 0 = settled at settledEnds ⊢
  obtain ⟨source, units, _, isOpening, image⟩ := settled
  cases settledEnds
  have stopEq (previous : Nat) : max stop (min previous (stop - 1) + 1) = stop := by omega
  cases units <;> simp only [lastStop, stopEq]

theorem leave_eq {stop : Nat} {ends : List Nat} (endsEq : builder.ends = stop :: ends)
    (closes : lastStop (builder.settle 0).units < stop) (token : Token) :
    builder.leave token = { builder.settle 0 with
      units := { start := lastStop (builder.settle 0).units, stop, content := .closing token } ::
        (builder.settle 0).units
      ends } := by
  have startEq : min (lastStop (builder.settle 0).units) (stop - 1) =
      lastStop (builder.settle 0).units := by omega
  rw [leave_eq_min endsEq (by omega), startEq]

/-- Where an element is left, its last unit begins behind what stands inside it. -/
theorem ReadTo.leave (readTo : ReadTo source builder isFresh position content) {stop : Nat}
    {ends : List Nat} (endsEq : builder.ends = stop :: ends) (closes : position < stop)
    (atPosition : Text.isBoundary source position = true)
    (atStop : Text.isBoundary source stop = true) (token : Token) :
    ReadTo source (builder.leave token) false stop
      (content ++ Text.slice source position stop) := by
  obtain ⟨lastLe, atLast, contentEq⟩ := readTo.reached
  have closesLast : lastStop (builder.settle 0).units < stop := Nat.lt_of_le_of_lt lastLe closes
  have unitsEq : (builder.leave token).units =
      { start := lastStop (builder.settle 0).units, stop, content := .closing token } ::
        (builder.settle 0).units := by
    rw [leave_eq endsEq closesLast]
  have read := @runContent_reverse_cons source (builder.settle 0).units
    ⟨lastStop (builder.settle 0).units, stop, .closing token⟩ (Nat.le_refl _)
    (Nat.le_of_lt closesLast) atLast atLast atStop
  rw [gap_self atLast, String.append_empty] at read
  rw [← contentEq, String.append_assoc, slice_split atLast atPosition atStop lastLe
    (Nat.le_of_lt closes)]
  have whole := ReadTo.of_units
    (by rw [leave_eq endsEq closesLast]; exact (settle_image builder 0).trans readTo.noImage)
    (by rw [leave_eq endsEq closesLast]; exact settle_isOpening builder 0) unitsEq atStop
  rw [read] at whole
  exact whole

@[simp]
theorem leave_isOpening (builder : Builder) (token : Token) :
    (builder.leave token).isOpening = false := by
  unfold leave
  exact settle_isOpening builder 0

theorem leave_ends {stop : Nat} {ends : List Nat} (endsEq : builder.ends = stop :: ends)
    (token : Token) : (builder.leave token).ends = ends := by
  have settledEnds := (settle_ends builder 0).trans endsEq
  simp only [leave, settledEnds]

/-- A builder that has read up to a position, and has left what it has entered since. -/
structure LeftBy (before : Builder) (source : String) (isFresh : Bool) (position : Nat)
    (content : String) (builder : Builder) : Prop
    extends ReadTo source builder isFresh position content where
  ends_eq : builder.ends = before.ends
  staysClosed : before.isOpening = false → builder.isOpening = false

theorem LeftBy.of_add {unitContent : Content}
    (readTo : ReadTo source (builder.add span unitContent) isFresh position content) :
    LeftBy builder source isFresh position content (builder.add span unitContent) :=
  ⟨readTo, settle_ends builder span.start, fun _ => settle_isOpening builder span.start⟩

theorem LeftBy.trans {before after : Builder} {isFirstFresh : Bool} {middle : Nat} {read : String}
    (first : LeftBy before source isFirstFresh middle read builder)
    (second : LeftBy builder source isFresh position content after) :
    LeftBy before source isFresh position content after :=
  ⟨second.toReadTo, second.ends_eq.trans first.ends_eq,
    fun closed => second.staysClosed (first.staysClosed closed)⟩

/-- A unit that is no line break adds its source. -/
theorem LeftBy.leaf (span : Span) (readTo : ReadTo source builder isFresh span.start content)
    (filled : span.start < span.stop) (atStart : Text.isBoundary source span.start = true)
    (atStop : Text.isBoundary source span.stop = true) {unitContent : Content}
    (noBreak : isBreak ⟨span.start, span.stop, unitContent⟩ = false) :
    LeftBy builder source false span.stop (content ++ Text.slice source span.start span.stop)
      (builder.add span unitContent) := by
  have added := readTo.add span (Nat.le_refl _) filled atStart atStop unitContent
  rw [own, noBreak, gap_self atStart, String.append_empty] at added
  exact .of_add added

theorem LeftBy.step_leaf {kind : InlineEvent.Kind} (isLeaf : kind.isLeaf = true) (span : Span)
    (readTo : ReadTo source builder isFresh span.start content)
    (filled : span.start < span.stop) (atStart : Text.isBoundary source span.start = true)
    (atStop : Text.isBoundary source span.stop = true) :
    LeftBy builder source false span.stop (content ++ Text.slice source span.start span.stop)
      (builder.step { span, kind }) := by
  rw [step_of_noImage readTo.noImage]
  cases kind with
  | text | code | html => exact LeftBy.leaf span readTo filled atStart atStop rfl
  | _ => cases isLeaf

/-- The backslash of an escape is left out where a line begins. -/
theorem LeftBy.step_escape {start stop : Nat} (text : String)
    (readTo : ReadTo source builder isFresh start content)
    (backslash : Text.byteAt? source start = some '\\') (filled : start + 1 < stop)
    (atStop : Text.isBoundary source stop = true) :
    LeftBy builder source false stop
      (content ++ gap source isFresh start (start + 1) ++ Text.slice source (start + 1) stop)
      (builder.step { span := ⟨start + 1, stop⟩, kind := .text text }) := by
  rw [step_of_noImage readTo.noImage]
  exact .of_add (readTo.add ⟨start + 1, stop⟩ (Nat.le_succ _) filled
    (Text.boundaries_of_backslash backslash).2 atStop _)

theorem LeftBy.step_lineBreak {start : Nat}
    (readTo : ReadTo source builder isFresh start content)
    (newline : Text.byteAt? source start = some '\n') :
    LeftBy builder source true (start + 1) (content ++ Text.slice source start (start + 1))
      (builder.step { span := ⟨start, start + 1⟩, kind := .softBreak }) := by
  obtain ⟨atStart, atNext⟩ := WikiLink.boundaries_of_byteAt? newline (by decide)
  obtain ⟨before, behind, splits, _⟩ := Text.exists_splitsAt_of_byteAt? newline (by decide)
  have written : Text.slice source start (start + 1) = "\n" :=
    Text.slice_of_charAt? atStart splits.charAt?_eq
  rw [step_of_noImage readTo.noImage, written]
  have added := readTo.add ⟨start, start + 1⟩ (Nat.le_refl _) (Nat.lt_succ_self _)
    atStart atNext (.leaf (Token.ofKind .softbreak "br" .leaf))
  rw [gap_self atStart, String.append_empty] at added
  exact .of_add added

/-- An element adds its marks, and what stands inside it. -/
theorem LeftBy.foldl_element {element : Element} (notImage : element.kind ≠ .image)
    (span : Span) (readTo : ReadTo source builder isFresh span.start content)
    (atStart : Text.isBoundary source span.start = true)
    (atMark : Text.isBoundary source (span.start + 1) = true) {first last : Nat}
    (opened : span.start < first) (atFirst : Text.isBoundary source first = true)
    (closed : last < span.stop) (atLast : Text.isBoundary source last = true)
    (atStop : Text.isBoundary source span.stop = true) {inside : List InlineEvent} {inner : String}
    (left : ∀ {entered : Builder},
      ReadTo source entered false first (content ++ Text.slice source span.start first) →
      ∃ isFresh, LeftBy entered source isFresh last
        (content ++ Text.slice source span.start first ++ inner) (inside.foldl step entered)) :
    LeftBy builder source false span.stop
      (content ++ (Text.slice source span.start first ++ inner ++
        Text.slice source last span.stop))
      ((inside.foldl step (builder.step { span, kind := .enter element })).step
        { span, kind := .leave element.kind }) := by
  have entered := readTo.enter atStart atMark opened atFirst (openingToken element)
  have enteredEnds : (builder.enter span (openingToken element)).ends =
      span.stop :: builder.ends :=
    congrArg (span.stop :: ·) (settle_ends builder span.start)
  obtain ⟨isFresh, read⟩ := left entered
  have endsEq := read.ends_eq.trans enteredEnds
  have leaving := read.leave endsEq closed atLast atStop (closingToken element.kind)
  rw [step_of_noImage readTo.noImage, stepOutside_enter notImage, step_of_noImage read.noImage,
    stepOutside_leave notImage]
  refine ⟨?_, leave_ends endsEq _, fun _ => leave_isOpening _ _⟩
  simpa [String.append_assoc] using leaving

/-- An image adds its source, whatever stands inside it. -/
theorem LeftBy.foldl_image (span : Span)
    (readTo : ReadTo source builder isFresh span.start content)
    (filled : span.start < span.stop) (atStart : Text.isBoundary source span.start = true)
    (atStop : Text.isBoundary source span.stop = true) {inside : List InlineEvent}
    (nested : InlineEvent.Nested inside) (target title : String) :
    LeftBy builder source false span.stop
      (content ++ Text.slice source span.start span.stop)
      ((inside.foldl step (builder.step { span, kind := .enter (.image target title) })).step
        { span, kind := .leave .image }) := by
  rw [Builder.foldl_image readTo.noImage nested]
  apply LeftBy.leaf span readTo filled atStart atStop
  simp [isBreak, kind_imageToken]

/-- Events that fill a source add it, without the backslashes of the escapes with which lines
begin. -/
theorem ReadTo.foldl {start stop : Nat} {events : List InlineEvent} {escapes : List Nat}
    (tile : Tile source isFresh start stop events escapes)
    (readTo : ReadTo source builder isFresh start content) :
    ∃ isFresh, LeftBy builder source isFresh stop
      (content ++ sliceWithout source stop start escapes) (events.foldl step builder) := by
  induction tile generalizing builder content with
  | nil atStop =>
      rw [sliceWithout, Text.slice_self atStop, String.append_empty]
      exact ⟨_, readTo, rfl, id⟩
  | @leaf _ start next _ _ _ _ atStart later isLeaf behind ih =>
      have read := LeftBy.step_leaf isLeaf ⟨start, next⟩ readTo later atStart behind.boundaries.1
      obtain ⟨isFresh, left⟩ := ih read.toReadTo
      rw [String.append_assoc, behind.slice_append atStart (Nat.le_of_lt later)] at left
      exact ⟨isFresh, read.trans left⟩
  | @escape _ _ _ _ text _ _ backslash later behind ih =>
      have atText := (Text.boundaries_of_backslash backslash).2
      have read := LeftBy.step_escape text readTo backslash later behind.boundaries.1
      obtain ⟨isFresh, left⟩ := ih read.toReadTo
      rw [String.append_assoc, behind.slice_append atText (Nat.le_of_lt later),
        String.append_assoc, gap_append_sliceWithout backslash behind.boundaries.2
          (behind.areBackslashes.of_le (Nat.le_of_lt later))] at left
      exact ⟨isFresh, read.trans left⟩
  | lineBreak newline behind ih =>
      have atStart := (WikiLink.boundaries_of_byteAt? newline (by decide)).1
      have read := LeftBy.step_lineBreak readTo newline
      obtain ⟨isFresh, left⟩ := ih read.toReadTo
      rw [String.append_assoc, behind.slice_append atStart (Nat.le_succ _)] at left
      exact ⟨isFresh, read.trans left⟩
  | @element _ start first last next stop _ _ _ inner escapes notImage atStart atMark opened
      insideTile closed behind insideIh ih =>
      obtain ⟨atFirst, atLast⟩ := insideTile.boundaries
      obtain ⟨atNext, atStop⟩ := behind.boundaries
      have read := LeftBy.foldl_element notImage ⟨start, next⟩ readTo atStart atMark opened
        atFirst closed atLast atNext insideIh
      obtain ⟨isFresh, left⟩ := ih read.toReadTo
      have contentEq : Text.slice source start first ++ sliceWithout source last first inner ++
          Text.slice source last next ++ sliceWithout source stop next escapes =
            sliceWithout source stop start (inner ++ escapes) := by
        rw [insideTile.slice_append atStart (Nat.le_of_lt opened), String.append_assoc,
          behind.slice_append atLast (Nat.le_of_lt closed)]
        exact Text.sliceWithout_append atStart atLast atStop
          (insideTile.areBackslashes.of_le (Nat.le_of_lt opened))
          (behind.areBackslashes.of_le (Nat.le_of_lt closed))
      rw [String.append_assoc, contentEq] at left
      rw [foldl_enclosed]
      exact ⟨isFresh, read.trans left⟩
  | @image _ start first last next _ target title _ _ _ _ atStart opened insideTile closed
      behind _ ih =>
      have inOrder := insideTile.areBackslashes.inOrder
      have filled : start < next :=
        Nat.lt_of_lt_of_le opened (Nat.le_trans inOrder (Nat.le_of_lt closed))
      have read := LeftBy.foldl_image ⟨start, next⟩ readTo filled atStart behind.boundaries.1
        insideTile.nested target title
      obtain ⟨isFresh, left⟩ := ih read.toReadTo
      rw [String.append_assoc, behind.slice_append atStart (Nat.le_of_lt filled)] at left
      rw [foldl_enclosed]
      exact ⟨isFresh, read.trans left⟩

end Builder

/-- The source of a run is what its events fill, without the backslashes of the escapes with
which lines begin. -/
theorem runContent_ofEvents {stop : Nat} {events : List InlineEvent} {escapes : List Nat}
    (tile : Tile source true 0 stop events escapes) :
    runContent source (ofEvents source events) = sliceWithout source stop 0 escapes := by
  have start : Builder.ReadTo source { source } true 0 "" :=
    .of_closed rfl rfl tile.boundaries.1
  obtain ⟨isFresh, read⟩ := start.foldl tile
  have whole := read.runContent_eq (read.staysClosed rfl)
  rw [String.empty_append] at whole
  rw [ofEvents, Builder.finish, read.noImage]
  exact whole

end SourceUnit

end WikiPress
