import WikiPress.Proofs.Inline.LinkLevel
import WikiPress.Proofs.Inline.UnitsOfEvents
import WikiPress.Proofs.Markdown.Emphasis

/-!
# The tokens of a link

A run that is a single link around text, code and emphasis is tokenized into a single
opening token of a link: the cursor passes it first, inside the link no wiki link is read,
and behind its closing token nothing is left.
-/

namespace WikiPress

open Markdown

namespace SourceUnit

/-! ## Units of a link -/

/-- A unit that neither opens nor closes a link. -/
def LinkFree (sourceUnit : SourceUnit) : Prop :=
  ∀ token, sourceUnit.content = .opening token ∨ sourceUnit.content = .closing token ∨
      sourceUnit.content = .leaf token →
    token.kind ≠ .linkOpen ∧ token.kind ≠ .linkClose

/-- The units of a single link. -/
structure IsLinkRun (units : List SourceUnit) (first last : SourceUnit) (opener : Token) :
    Prop where
  exists_inside : ∃ inside, units = first :: (inside ++ [last]) ∧
    ∀ sourceUnit ∈ inside, sourceUnit.LinkFree
  nonempty : first.start < first.stop
  opens : first.content = .opening opener
  isLink : opener.kind = .linkOpen
  closes : last.content = .closing (closingToken .link)

theorem linkFree_text {sourceUnit : SourceUnit} {text : String} {isLiteral : Bool}
    (content : sourceUnit.content = .text text isLiteral) : sourceUnit.LinkFree := by
  rintro token (opening | closing | leaf)
  all_goals simp_all

theorem linkFree_of_eq {sourceUnit : SourceUnit} {token : Token}
    (content : sourceUnit.content = .opening token ∨ sourceUnit.content = .closing token ∨
      sourceUnit.content = .leaf token)
    (noOpen : token.kind ≠ .linkOpen) (noClose : token.kind ≠ .linkClose) :
    sourceUnit.LinkFree := by
  rintro other same
  have : other = token := by
    rcases content with content | content | content <;>
      rcases same with same | same | same <;> rw [content] at same <;> cases same <;> rfl
  rw [this]
  exact ⟨noOpen, noClose⟩

namespace Builder

variable {builder : Builder}

/-- The first unit opens a link, and no other unit so far has to do with links. -/
structure InLink (builder : Builder) (start : Nat) (opener : Token) : Prop where
  image_eq : builder.image = none
  exists_units : ∃ later first, builder.units = later ++ [first] ∧ first.start = start ∧
    first.start < first.stop ∧ first.content = .opening opener ∧
    ∀ sourceUnit ∈ later, sourceUnit.LinkFree

variable {start : Nat} {opener : Token}

theorem InLink.settle (inLink : builder.InLink start opener) (nextStart : Nat) :
    (builder.settle nextStart).InLink start opener ∧
      (builder.settle nextStart).ends = builder.ends := by
  obtain ⟨imageEq, later, first, unitsEq, startEq, nonempty, opens, free⟩ := inLink
  unfold Builder.settle
  split
  · rename_i last rest _ lastUnits
    refine ⟨⟨imageEq, ?_⟩, rfl⟩
    rw [unitsEq] at lastUnits
    cases later with
    | nil =>
        obtain ⟨rfl, rfl⟩ := List.cons.inj lastUnits
        exact ⟨[], _, rfl, startEq, by simp only; omega, opens, nofun⟩
    | cons unit later =>
        obtain ⟨rfl, rfl⟩ := List.cons.inj lastUnits
        obtain ⟨unitFree, laterFree⟩ := List.forall_mem_cons.mp free
        exact ⟨_ :: later, first, rfl, startEq, nonempty, opens,
          List.forall_mem_cons.mpr ⟨fun token => unitFree token, laterFree⟩⟩
  · exact ⟨⟨imageEq, later, first, unitsEq, startEq, nonempty, opens, free⟩, rfl⟩

theorem InLink.cons (inLink : builder.InLink start opener) {sourceUnit : SourceUnit}
    (isFree : sourceUnit.LinkFree) (ends : List Nat) (isOpening : Bool) :
    InLink { builder with units := sourceUnit :: builder.units, ends, isOpening } start
      opener := by
  obtain ⟨imageEq, later, first, unitsEq, startEq, nonempty, opens, free⟩ := inLink
  exact ⟨imageEq, sourceUnit :: later, first, by simp [unitsEq], startEq, nonempty, opens,
    List.forall_mem_cons.mpr ⟨isFree, free⟩⟩

theorem InLink.add (inLink : builder.InLink start opener) (span : Span) {content : Content}
    (isFree : ∀ start stop, LinkFree { start, stop, content }) :
    (builder.add span content).InLink start opener ∧
      (builder.add span content).ends = builder.ends := by
  obtain ⟨settled, endsEq⟩ := inLink.settle span.start
  exact ⟨settled.cons (isFree _ _) _ _, endsEq⟩

/-- Emphasis is entered and left with tokens that neither open nor close a link. -/
theorem noLink_of_isEmphasis {element : Element} (isEmphasis : element.isEmphasis = true) :
    element.kind ≠ .image ∧
      ((openingToken element).kind ≠ .linkOpen ∧ (openingToken element).kind ≠ .linkClose) ∧
      (closingToken element.kind).kind ≠ .linkOpen ∧
      (closingToken element.kind).kind ≠ .linkClose := by
  cases element with
  | link target title => cases isEmphasis
  | image target title => cases isEmphasis
  | _ => exact ⟨nofun, ⟨nofun, nofun⟩, nofun, nofun⟩

/-- The unit that closes an element ends where the element does, or behind it. -/
theorem exists_leave (token : Token) {stop : Nat} {ends : List Nat}
    (endsEq : (builder.settle 0).ends = stop :: ends) :
    ∃ last : SourceUnit, last.content = .closing token ∧ stop ≤ last.stop ∧
      builder.leave token =
        { builder.settle 0 with units := last :: (builder.settle 0).units, ends } := by
  unfold Builder.leave
  simp only [endsEq]
  refine ⟨_, ?closing, ?behind, rfl⟩
  case closing => rfl
  case behind => exact Nat.le_max_left _ _

/-- Calm events stay inside the link, and leave every element that they enter. -/
theorem InLink.foldr (inLink : builder.InLink start opener) {events : List InlineEvent}
    (calm : InlineEvent.Calm events) :
    (events.foldr (fun event builder => builder.step event) builder).InLink start opener ∧
      (events.foldr (fun event builder => builder.step event) builder).ends = builder.ends := by
  induction calm generalizing builder with
  | nil => exact ⟨inLink, rfl⟩
  | text span content _ ih =>
      obtain ⟨before, endsEq⟩ := ih inLink
      rw [List.foldr_cons, step_of_noImage before.image_eq, ← endsEq]
      exact before.add span fun _ _ => linkFree_text rfl
  | code span content _ ih =>
      obtain ⟨before, endsEq⟩ := ih inLink
      rw [List.foldr_cons, step_of_noImage before.image_eq, ← endsEq]
      exact before.add span fun _ _ => linkFree_of_eq (.inr (.inr rfl)) nofun nofun
  | @element span element isEmphasis inner earlier _ _ innerIh ih =>
      obtain ⟨before, endsEq⟩ := ih inLink
      obtain ⟨notImage, opensNoLink, closesNoLink⟩ := noLink_of_isEmphasis isEmphasis
      rw [List.foldr_cons, List.foldr_append, List.foldr_cons, step_of_noImage before.image_eq]
      generalize earlier.foldr (fun event builder => builder.step event) builder = outer at *
      -- the element is entered
      obtain ⟨settled, settledEnds⟩ := before.settle span.start
      have inside : (outer.enter span (openingToken element)).InLink start opener :=
        settled.cons (linkFree_of_eq (.inl rfl) opensNoLink.1 opensNoLink.2) _ _
      have insideEnds : (outer.enter span (openingToken element)).ends =
          span.stop :: outer.ends := congrArg (span.stop :: ·) settledEnds
      obtain ⟨behind, behindEnds⟩ := innerIh inside
      rw [stepOutside_enter notImage, step_of_noImage behind.image_eq]
      generalize inner.foldr (fun event builder => builder.step event)
        (outer.enter span (openingToken element)) = reached at *
      -- and left
      obtain ⟨closed, closedEnds⟩ := behind.settle 0
      obtain ⟨last, closes, _, leaveEq⟩ := reached.exists_leave (closingToken element.kind)
        ((closedEnds.trans behindEnds).trans insideEnds)
      rw [stepOutside_leave notImage, leaveEq, ← endsEq]
      exact ⟨closed.cons (linkFree_of_eq (.inr (.inl closes)) closesNoLink.1 closesNoLink.2) _ _,
        rfl⟩

end Builder

/-- The units of a link. -/
theorem exists_isLinkRun (source : String) {span : Span} {target : String}
    {events : List InlineEvent} (isLink : InlineEvent.IsLink span target events) :
    ∃ first last,
      IsLinkRun (ofEvents source events) first last (openingToken (.link target "")) ∧
      first.start = span.start ∧ span.stop ≤ last.stop := by
  obtain ⟨inside, calm, rfl⟩ := isLink
  let opener := openingToken (.link target "")
  let opened : Builder := Builder.enter { source } span opener
  have inLink : opened.InLink span.start opener :=
    ⟨rfl, [], _, rfl, rfl, Nat.lt_succ_self _, rfl, nofun⟩
  obtain ⟨reached, reachedEnds⟩ := inLink.foldr calm
  rw [List.foldr_reverse] at reached reachedEnds
  have folded : (⟨span, .enter (.link target "")⟩ ::
        (inside ++ [⟨span, .leave .link⟩])).foldl Builder.step { source } =
      (inside.foldl (fun builder event => builder.step event) opened).step
        ⟨span, .leave .link⟩ := by
    rw [List.foldl_cons, List.foldl_append]
    rfl
  unfold ofEvents
  rw [folded]
  generalize inside.foldl (fun builder event => builder.step event) opened = behind at *
  have left : behind.step ⟨span, .leave .link⟩ = behind.leave (closingToken .link) := by
    rw [Builder.step_of_noImage reached.image_eq]
    rfl
  obtain ⟨settled, settledEnds⟩ := reached.settle 0
  obtain ⟨later, first, unitsEq, startEq, nonempty, opens, free⟩ := settled.exists_units
  have endsEq : (behind.settle 0).ends = [span.stop] := settledEnds.trans reachedEnds
  obtain ⟨last, closes, stopLe, leaveEq⟩ := behind.exists_leave (closingToken .link) endsEq
  have finishEq : (behind.leave (closingToken .link)).finish =
      first :: (later.reverse ++ [last]) := by
    rw [leaveEq]
    unfold Builder.finish
    simp only [settled.image_eq, unitsEq]
    simp
  rw [left, finishEq]
  refine ⟨first, last, ⟨⟨later.reverse, rfl, ?_⟩, nonempty, opens, rfl, closes⟩, startEq, stopLe⟩
  exact fun sourceUnit member => free sourceUnit (List.mem_reverse.mp member)

end SourceUnit

open SourceUnit

/-! ## Tokens of a link -/

/-- The tokens that open links. -/
def Token.linkOpens (tokens : List Token) : List Token :=
  tokens.filter fun token => token.kind = .linkOpen

namespace InlineState

@[simp]
theorem linkOpens_flush (state : InlineState) :
    Token.linkOpens state.flush.tokens = Token.linkOpens state.tokens := by
  unfold flush
  split
  · rfl
  · exact List.filter_cons_of_neg (by simp [Token.ofText])

@[simp]
theorem linkOpens_push (state : InlineState) (token : Token) :
    Token.linkOpens (state.push token).tokens =
      (if token.kind = .linkOpen then [token] else []) ++ Token.linkOpens state.tokens := by
  rw [← linkOpens_flush state]
  unfold push Token.linkOpens
  rw [List.filter_cons]
  simp only [decide_eq_true_eq]
  split <;> rfl

/-- The cursor is behind the opening of the only link of its run, and inside this link or at
the end of the run. -/
structure BehindOpening (state : InlineState) (units : List SourceUnit)
    (first last : SourceUnit) (opener : Token) : Prop where
  units_eq : state.units = units
  limit_eq : state.limit = last.stop
  passed : first.stop ≤ state.position
  linkOpens_eq : Token.linkOpens state.tokens = [opener]
  isInside : 0 < state.linkLevel ∨ state.limit ≤ state.position

variable {units : List SourceUnit} {first last : SourceUnit} {opener : Token}
  {state after : InlineState}

/-- Text may be written, and the cursor may move on. -/
theorem BehindOpening.goto (behind : state.BehindOpening units first last opener)
    (sameRun : SameRun state after)
    (linkOpensEq : Token.linkOpens after.tokens = Token.linkOpens state.tokens)
    (linkLevelEq : after.linkLevel = state.linkLevel) {position : Nat}
    (forward : state.position ≤ position) :
    (after.goto position).BehindOpening units first last opener := by
  refine ⟨sameRun.units_eq.trans behind.units_eq, sameRun.limit_eq.trans behind.limit_eq,
    Nat.le_trans behind.passed forward, linkOpensEq.trans behind.linkOpens_eq, ?_⟩
  rcases behind.isInside with isOpen | atEnd
  · exact .inl (linkLevelEq ▸ isOpen)
  · refine .inr ?_
    have limitEq := sameRun.limit_eq
    change after.limit ≤ position
    omega

/-- A token that opens no link is written; the link stays open, or the cursor goes to the
end. -/
theorem BehindOpening.passToken (behind : state.BehindOpening units first last opener)
    {token : Token} (noOpen : token.kind ≠ .linkOpen) {stop : Nat}
    (forward : state.position ≤ stop) (isLast : token.kind = .linkClose → stop = last.stop) :
    (state.passToken true token stop).BehindOpening units first last opener := by
  let counted := { state with linkLevel := linkLevelAfter state.linkLevel token }
  have sameRun := sameRun_push counted token
  refine ⟨sameRun.units_eq.trans behind.units_eq, sameRun.limit_eq.trans behind.limit_eq,
    Nat.le_trans behind.passed forward, ?_, ?_⟩
  · change Token.linkOpens (counted.push token).tokens = [opener]
    rw [linkOpens_push, if_neg noOpen]
    exact behind.linkOpens_eq
  · by_cases closes : token.kind = .linkClose
    · right
      change (counted.push token).limit ≤ stop
      rw [sameRun.limit_eq, isLast closes]
      exact Nat.le_of_eq behind.limit_eq
    · have level : linkLevelAfter state.linkLevel token = state.linkLevel := by
        unfold linkLevelAfter
        split
        · contradiction
        · contradiction
        · rfl
      rcases behind.isInside with isOpen | atEnd
      · left
        change 0 < (counted.push token).linkLevel
        rw [push_linkLevel]
        change 0 < linkLevelAfter state.linkLevel token
        rwa [level]
      · right
        change (counted.push token).limit ≤ stop
        rw [sameRun.limit_eq]
        exact Nat.le_trans atEnd forward

theorem BehindOpening.step (isRun : IsLinkRun units first last opener)
    (behind : state.BehindOpening units first last opener)
    (inside : state.position < state.limit) :
    (state.step true).BehindOpening units first last opener := by
  obtain ⟨between, unitsEq, free⟩ := isRun.exists_inside
  unfold InlineState.step
  cases found : state.currentUnit? with
  | none => exact behind.goto (.refl state) rfl rfl (Nat.le_of_lt inside)
  | some sourceUnit =>
      have ahead : state.position < sourceUnit.stop := by
        unfold currentUnit? at found
        simpa using List.find?_some found
      have member : sourceUnit ∈ units := behind.units_eq ▸ List.mem_of_find?_eq_some found
      have passed := behind.passed
      -- it is not the unit that opens the link, which has been passed
      have isLater : sourceUnit.LinkFree ∨ sourceUnit = last := by
        rw [unitsEq] at member
        rcases List.mem_cons.mp member with rfl | later
        · omega
        · rcases List.mem_append.mp later with isBetween | isLast
          · exact .inl (free sourceUnit isBetween)
          · exact .inr (List.mem_singleton.mp isLast)
      have token {token : Token} (content : sourceUnit.content = .opening token ∨
          sourceUnit.content = .closing token ∨ sourceUnit.content = .leaf token) :
          (state.passToken true token sourceUnit.stop).BehindOpening units first last opener := by
        rcases isLater with isFree | rfl
        · obtain ⟨noOpen, noClose⟩ := isFree token content
          exact behind.passToken noOpen (Nat.le_of_lt ahead) fun closes => absurd closes noClose
        · rw [isRun.closes] at content
          rcases content with content | content | content <;> cases content
          exact behind.passToken (by decide) (Nat.le_of_lt ahead) fun _ => rfl
      have texted (text : String) : SameRun state (state.pushText text) := ⟨rfl, rfl, rfl⟩
      simp only
      split
      · exact behind.goto (.refl state) rfl rfl (by omega)
      · cases content : sourceUnit.content with
        | text text isLiteral =>
            cases isLiteral with
            | true =>
                simp only [if_true]
                split
                · exact behind.goto (texted _) rfl rfl (Nat.le_add_right _ _)
                · exact behind.goto (.refl state) rfl rfl (Nat.le_of_lt ahead)
            | false =>
                simp only [Bool.true_and]
                split
                · exact behind.goto (texted _) rfl rfl (Nat.le_of_lt ahead)
                · exact behind.goto (.refl state) rfl rfl (Nat.le_of_lt ahead)
        | opening other => exact token (.inl content)
        | closing other => exact token (.inr (.inl content))
        | leaf other => exact token (.inr (.inr content))

end InlineState

open InlineState

namespace Tokenizer

variable {rules : List InlineRule} (onlyWikiLinks : ∀ rule ∈ rules, rule = WikiLink.rule)

include onlyWikiLinks

theorem linkOpens_tokenizeWith {units : List SourceUnit} {first last : SourceUnit}
    {opener : Token} (isRun : IsLinkRun units first last opener) {state : InlineState}
    (behind : state.BehindOpening units first last opener) (inner : Tokenizer) (rounds : Nat) :
    Token.linkOpens (tokenizeWith rules inner rounds state).tokens = [opener] := by
  induction rounds generalizing state with
  | zero => exact (linkOpens_flush state).trans behind.linkOpens_eq
  | succ rounds ih =>
      unfold tokenizeWith
      split
      · rename_i inside
        have isOpen : 0 < state.linkLevel :=
          behind.isInside.resolve_right (Nat.not_le.mpr inside)
        rw [tryAll_eq_of_refused onlyWikiLinks inner (.inl isOpen)]
        exact ih (behind.step isRun inside)
      · exact (linkOpens_flush state).trans behind.linkOpens_eq

end Tokenizer

/-- A run that is a link, and does not begin with two brackets, has the opening token of
this link, and of no other one. -/
theorem linkOpens_tokenizeRun {rules : List InlineRule}
    (onlyWikiLinks : ∀ rule ∈ rules, rule = WikiLink.rule) {source : String} (pages : PageSet)
    {units : List SourceUnit} {first last : SourceUnit} {opener : Token}
    (isRun : IsLinkRun units first last opener) (inOrder : first.start < last.stop)
    (noWikiLink : Text.byteAt? source (first.start + 1) ≠ some '[') :
    Token.linkOpens (tokenizeRun source pages rules units) = [opener] := by
  obtain ⟨between, unitsEq, free⟩ := isRun.exists_inside
  let state : InlineState :=
    { source, position := first.start, limit := last.stop, pages, units }
  let inner := Tokenizer.withRules rules (last.stop - first.start)
  obtain ⟨rounds, roundsEq⟩ : ∃ rounds, last.stop - first.start = rounds + 1 :=
    ⟨last.stop - first.start - 1, by omega⟩
  have noBracket : WikiLink.mayBegin state = false := by
    unfold WikiLink.mayBegin
    rw [Bool.and_eq_false_iff]
    exact .inr (beq_false_of_ne noWikiLink)
  have refused := Tokenizer.tryAll_eq_of_refused onlyWikiLinks inner (.inr noBracket)
  have stepped : state.step true = state.passToken true opener first.stop := by
    have found : state.currentUnit? = some first := by
      unfold currentUnit?
      rw [show state.units = first :: (between ++ [last]) from unitsEq]
      exact List.find?_cons_of_pos (decide_eq_true isRun.nonempty)
    unfold InlineState.step
    simp only [found, isRun.opens]
    rw [if_neg (Nat.lt_irrefl first.start)]
  have behind : (state.step true).BehindOpening units first last opener := by
    let counted := { state with linkLevel := linkLevelAfter 0 opener }
    have sameRun := sameRun_push counted opener
    rw [stepped]
    refine ⟨sameRun.units_eq, sameRun.limit_eq, Nat.le_refl _, ?_, .inl ?_⟩
    · change Token.linkOpens (counted.push opener).tokens = [opener]
      rw [linkOpens_push, if_pos isRun.isLink]
      rfl
    · change 0 < (counted.push opener).linkLevel
      rw [push_linkLevel]
      simp [counted, linkLevelAfter, isRun.isLink]
  have run : tokenizeRun source pages rules units =
      (Tokenizer.tokenizeWith rules inner (last.stop - first.start) state).tokens.reverse := by
    have head : units.head? = some first := by rw [unitsEq, List.head?_cons]
    have final : units.getLast? = some last := by
      rw [unitsEq, ← List.cons_append, List.getLast?_append, List.getLast?_singleton]
      rfl
    unfold tokenizeRun
    simp only [head, final]
    rfl
  rw [run, roundsEq, Tokenizer.tokenizeWith, if_pos inOrder, refused]
  unfold Token.linkOpens
  rw [List.filter_reverse]
  exact congrArg List.reverse
    (Tokenizer.linkOpens_tokenizeWith onlyWikiLinks isRun behind inner rounds)

/-- The tokens of a link have one opening token of a link. -/
theorem linkOpens_of_isLink {rules : List InlineRule}
    (onlyWikiLinks : ∀ rule ∈ rules, rule = WikiLink.rule) {source : String} (pages : PageSet)
    {span : Span} {target : String} {events : List InlineEvent}
    (isLink : InlineEvent.IsLink span target events) (inOrder : span.start < span.stop)
    (noWikiLink : Text.byteAt? source (span.start + 1) ≠ some '[') :
    Token.linkOpens
        (tokenizeRun source pages rules (SourceUnit.ofEvents source events)) =
      [SourceUnit.openingToken (.link target "")] := by
  obtain ⟨first, last, isRun, startEq, stopLe⟩ := exists_isLinkRun source isLink
  exact linkOpens_tokenizeRun onlyWikiLinks pages isRun (by omega) (startEq ▸ noWikiLink)

end WikiPress
