import WikiPress.Proofs.Inline.WikiLinkReading

/-!
# Nesting of inline tokens

The tokens of a run are well nested if its units are, whatever wiki links it holds.

What is written for a range stands for its marks: behind the same open elements it opens
and closes the same ones.  A single step writes just the marks of the unit it passes.  A
wiki link swallows the marks it encloses and writes a pair of its own around the tokens of
its label; as it is replaced only where it is balanced, neither side leaves anything open.
-/

namespace WikiPress

open Token.Kind (awaited? depth?)
open SourceUnit (WellFormed Border marksIn)

namespace InlineState

/-- Kinds that lead from open elements to the open elements to which others lead. -/
def StandsFor (kinds marks : List Token.Kind) : Prop :=
  ∀ stack next, awaited? stack marks = some next → awaited? stack kinds = some next

theorem StandsFor.refl (marks : List Token.Kind) : StandsFor marks marks :=
  fun _ _ awaits => awaits

theorem StandsFor.append {firstKinds firstMarks restKinds restMarks : List Token.Kind}
    (first : StandsFor firstKinds firstMarks) (rest : StandsFor restKinds restMarks) :
    StandsFor (firstKinds ++ restKinds) (firstMarks ++ restMarks) := by
  intro stack next awaits
  rw [Token.Kind.awaited?_append] at awaits ⊢
  obtain ⟨middle, firstAwaits, restAwaits⟩ := Option.bind_eq_some_iff.mp awaits
  rw [first stack middle firstAwaits]
  exact rest middle next restAwaits

theorem StandsFor.wellNested {kinds marks : List Token.Kind} (stands : StandsFor kinds marks)
    (nested : Token.Kind.WellNested marks) : Token.Kind.WellNested kinds :=
  stands [] [] nested

/-- Marks that open and close one another can be replaced by any kinds that do. -/
theorem standsFor_of_depth? {kinds marks : List Token.Kind} (counts : depth? 0 marks = some 0)
    (nested : ∀ stack next, awaited? stack marks = some next → Token.Kind.WellNested kinds) :
    StandsFor kinds marks := by
  intro stack next awaits
  have same : some next = some stack :=
    awaits.symm.trans ((Token.Kind.wellNested_of_depth? awaits counts).awaited? stack)
  rw [same]
  exact (nested stack next awaits).awaited? stack

/-- A round leads from a border to a later one and writes what stands for the marks
between them. -/
structure Round (source : String) (units : List SourceUnit) (state after : InlineState)
    (kinds : List Token.Kind) : Prop where
  writes : Writes state kinds after
  later : state.position < after.position
  le_limit : after.position ≤ state.limit
  border : Border source units after.position
  standsFor : StandsFor kinds (marksIn units state.position after.position)

theorem Round.placed {source : String} {units : List SourceUnit} {state after : InlineState}
    {kinds : List Token.Kind} (round : Round source units state after kinds)
    (placed : Placed source units state) : Placed source units after := by
  have sameRun := round.writes.sameRun
  refine ⟨sameRun.source_eq.trans placed.source_eq, sameRun.units_eq.trans placed.units_eq,
    round.border, ?_⟩
  rw [sameRun.limit_eq]
  exact placed.atLimit

end InlineState

open InlineState

namespace Tokenizer

/-- A tokenizer that writes well-nested tokens for every part of a run whose marks are
well nested. -/
def KeepsNesting (source : String) (units : List SourceUnit) (tokenizer : Tokenizer) : Prop :=
  ∀ state, Placed source units state → state.position ≤ state.limit →
    ∃ kinds, Writes state kinds (tokenizer.tokenize state) ∧
      (Token.Kind.WellNested (marksIn units state.position state.limit) →
        Token.Kind.WellNested kinds)

end Tokenizer

/-! ## Wiki links -/

namespace WikiLink

variable {source : String} {units : List SourceUnit} {tokenizer : Tokenizer}
  {state : InlineState}

/-- A part of a run that can be replaced begins and ends at borders, and its marks open
and close one another. -/
theorem Replaceable.borders (wellFormed : WellFormed source units)
    (placed : Placed source units state) {start stop : Nat}
    (replaceable : Replaceable state start stop) :
    Border source units start ∧ Border source units stop ∧
      depth? 0 (marksIn units start stop) = some 0 := by
  obtain ⟨⟨inOrder, atStart, atStop⟩, balanced⟩ := replaceable
  obtain ⟨cleanStart, cleanStop, counts⟩ := SourceUnit.of_isBalanced wellFormed.ordered
    wellFormed.fits placed.units_eq inOrder balanced
  rw [placed.source_eq] at atStart atStop
  exact ⟨⟨atStart, cleanStart⟩, ⟨atStop, cleanStop⟩, counts⟩

/-- The tokens of a label are well nested if its marks are. -/
theorem writes_writeLabel (wellFormed : WellFormed source units)
    (keeps : tokenizer.KeepsNesting source units) (placed : Placed source units state)
    {opened : InlineState} {kinds : List Token.Kind} (writes : Writes state kinds opened)
    {label : Span} (replaceable : Replaceable state label.start label.stop) :
    ∃ written, Writes opened written (writeLabel tokenizer opened label) ∧
      (Token.Kind.WellNested (marksIn units label.start label.stop) →
        Token.Kind.WellNested written) := by
  obtain ⟨atStart, atStop, _⟩ := replaceable.borders wellFormed placed
  have inside : Placed source units
      { opened with
        position := label.start
        limit := label.stop
        linkLevel := opened.linkLevel + 1 } :=
    ⟨writes.sameRun.source_eq.trans placed.source_eq,
      writes.sameRun.units_eq.trans placed.units_eq, atStart, atStop⟩
  obtain ⟨written, labelWrites, nested⟩ := keeps _ inside replaceable.cut.inOrder
  exact ⟨written, ⟨⟨labelWrites.sameRun.source_eq, labelWrites.sameRun.units_eq, rfl⟩,
    labelWrites.brackets_eq⟩, nested⟩

/-- Where the marks of a link are consumed, those of its label are well nested. -/
theorem wellNested_label (wellFormed : WellFormed source units)
    (placed : Placed source units state) {label : Option Span} {stop : Nat}
    (encloses : Encloses state label stop) {range : Span} (member : range ∈ label)
    {stack next : List Token.Kind}
    (awaits : awaited? stack (marksIn units state.position stop) = some next) :
    Token.Kind.WellNested (marksIn units range.start range.stop) := by
  obtain ⟨startLe, replaceable, leStop⟩ := encloses.label range member
  obtain ⟨atStart, atStop, counts⟩ := replaceable.borders wellFormed placed
  have ordered := wellFormed.ordered
  have inOrder := replaceable.cut.inOrder
  rw [SourceUnit.marksIn_split ordered atStart.clean startLe (Nat.le_trans inOrder leStop),
    SourceUnit.marksIn_split ordered atStop.clean inOrder leStop,
    Token.Kind.awaited?_append] at awaits
  obtain ⟨before, _, fromLabel⟩ := Option.bind_eq_some_iff.mp awaits
  rw [Token.Kind.awaited?_append] at fromLabel
  obtain ⟨behind, labelAwaits, _⟩ := Option.bind_eq_some_iff.mp fromLabel
  exact Token.Kind.wellNested_of_depth? labelAwaits counts

/-- A link is written as a pair of tokens around those of its label. -/
theorem writes_write (wellFormed : WellFormed source units)
    (keeps : tokenizer.KeepsNesting source units) (placed : Placed source units state)
    (target : Target) {label : Option Span} {stop : Nat} (encloses : Encloses state label stop) :
    ∃ written,
      Writes state ([.linkOpen] ++ written ++ [.linkClose])
        (write tokenizer state target label stop) ∧
      ((∀ range ∈ label, Token.Kind.WellNested (marksIn units range.start range.stop)) →
        Token.Kind.WellNested written) := by
  unfold write
  rcases target.resolve state.pages with ⟨address, cssClass⟩
  let opening :=
    ((Token.ofKind .linkOpen "a" .opening).addAttribute "href" address).addAttribute "class"
      cssClass
  have opens : Writes state [.linkOpen] (state.push opening) := writes_push state opening
  cases label with
  | none =>
      have labels := writes_pushText (state.push opening) target.destination
      have closes := writes_push ((state.push opening).pushText target.destination)
        (Token.ofKind .linkClose "a" .closing)
      exact ⟨[], ((opens.trans labels).trans closes).goto stop, fun _ => rfl⟩
  | some range =>
      obtain ⟨_, replaceable, _⟩ := encloses.label range rfl
      obtain ⟨written, labels, nested⟩ :=
        writes_writeLabel wellFormed keeps placed opens replaceable
      have closes := writes_push (writeLabel tokenizer (state.push opening) range)
        (Token.ofKind .linkClose "a" .closing)
      exact ⟨written, ((opens.trans labels).trans closes).goto stop,
        fun labelNested => nested (labelNested range rfl)⟩

/-- A pair of link tokens around well-nested kinds is well nested. -/
theorem wellNested_link {kinds : List Token.Kind} (nested : Token.Kind.WellNested kinds) :
    Token.Kind.WellNested ([.linkOpen] ++ kinds ++ [.linkClose]) := by
  change awaited? [] (([.linkOpen] ++ kinds) ++ [.linkClose]) = some []
  rw [Token.Kind.awaited?_append, Token.Kind.awaited?_append]
  change ((awaited? [.linkClose] kinds).bind fun next => awaited? next [.linkClose]) = some []
  rw [nested.awaited? [.linkClose]]
  rfl

/-- What is written for a link stands for the marks that it encloses. -/
theorem round_write (wellFormed : WellFormed source units)
    (keeps : tokenizer.KeepsNesting source units) (placed : Placed source units state)
    (target : Target) {label : Option Span} {stop : Nat} (encloses : Encloses state label stop) :
    ∃ kinds, Round source units state (write tokenizer state target label stop) kinds := by
  have cut : Cut state.source state.position stop :=
    ⟨Nat.le_of_lt encloses.later, placed.source_eq ▸ placed.atPosition.boundary, encloses.atStop⟩
  obtain ⟨_, border, counts⟩ := Replaceable.borders wellFormed placed ⟨cut, encloses.balanced⟩
  obtain ⟨written, writes, nested⟩ := writes_write wellFormed keeps placed target encloses
  refine ⟨_, writes, encloses.later, encloses.stop_le, border, ?_⟩
  apply standsFor_of_depth? counts
  intro stack next awaits
  apply wellNested_link
  apply nested
  intro range member
  exact wellNested_label wellFormed placed encloses member awaits

end WikiLink

/-! ## Runs -/

namespace Tokenizer

variable {source : String} {units : List SourceUnit} {inner : Tokenizer} {state : InlineState}

/-- Either a wiki link is read and written, or the state is left as it was. -/
theorem tryAll_wikiLink (forward : inner.SkipsForward) (state : InlineState) :
    InlineRule.tryAll inner [WikiLink.rule] state = { isMatch := false, state } ∨
      ∃ target label stop, WikiLink.mayBegin state = true ∧
        WikiLink.read inner state = (some (target, label, stop), state) ∧
        InlineRule.tryAll inner [WikiLink.rule] state =
          { isMatch := true, state := WikiLink.write inner state target label stop } := by
  by_cases refused : (false || decide (0 < state.linkLevel) || !WikiLink.mayBegin state) = true
  · left
    simp only [InlineRule.tryAll, WikiLink.rule, if_pos refused]
    rfl
  · have begins : WikiLink.mayBegin state = true := by
      simp only [Bool.or_eq_true, Bool.not_eq_true', not_or, Bool.not_eq_false] at refused
      exact refused.2
    have backEq := WikiLink.read_state_eq forward state
    rcases read : WikiLink.read inner state with ⟨link, back⟩
    obtain rfl : back = state := by rw [← backEq, read]
    cases link with
    | none =>
        left
        simp only [InlineRule.tryAll, WikiLink.rule, if_neg refused, read]
        rfl
    | some link =>
        obtain ⟨target, label, stop⟩ := link
        right
        refine ⟨target, label, stop, begins, rfl, ?_⟩
        simp only [InlineRule.tryAll, WikiLink.rule, if_neg refused, read]
        rfl

/-- Where no link is open, a wiki link that is read is written. -/
theorem tryAll_eq_write (noneOpen : state.linkLevel = 0) (begins : WikiLink.mayBegin state = true)
    {target : WikiLink.Target} {label : Option Span} {stop : Nat} {back : InlineState}
    (found : WikiLink.read inner state = (some (target, label, stop), back)) :
    InlineRule.tryAll inner [WikiLink.rule] state =
      { isMatch := true, state := WikiLink.write inner back target label stop } := by
  simp only [InlineRule.tryAll, WikiLink.rule, noneOpen, begins, found]
  rfl

/-- Wiki links are refused inside a link, and where two brackets do not stand. -/
theorem tryAll_eq_of_refused {rules : List InlineRule}
    (onlyWikiLinks : ∀ rule ∈ rules, rule = WikiLink.rule) (inner : Tokenizer)
    {state : InlineState}
    (refused : 0 < state.linkLevel ∨ WikiLink.mayBegin state = false) :
    InlineRule.tryAll inner rules state = { isMatch := false, state } := by
  have refuses : (false || decide (0 < state.linkLevel) || !WikiLink.mayBegin state) = true := by
    rcases refused with isOpen | other
    · rw [decide_eq_true isOpen]
      rfl
    · rw [other, Bool.not_false, Bool.or_true]
  induction rules with
  | nil => rfl
  | cons rule rules ih =>
      obtain ⟨isWikiLink, onlyWikiLinks⟩ := List.forall_mem_cons.mp onlyWikiLinks
      have passed : rule.parse inner false state = { isMatch := false, state } := by
        rw [isWikiLink]
        simp only [WikiLink.rule, if_pos refuses]
      unfold InlineRule.tryAll
      rw [passed]
      exact ih onlyWikiLinks

/-- Every round leads on and keeps the nesting, whether it writes a link or takes a
step. -/
theorem exists_round (wellFormed : WellFormed source units) (forward : inner.SkipsForward)
    (keeps : inner.KeepsNesting source units) (placed : Placed source units state)
    (inside : state.position < state.limit) {attempt : InlineRule.Attempt}
    (tried : InlineRule.tryAll inner [WikiLink.rule] state = attempt) :
    ∃ kinds, Round source units state
      (if attempt.isMatch then attempt.state else attempt.state.step true) kinds := by
  rcases tryAll_wikiLink forward state with
    noLink | ⟨target, label, stop, begins, read, written⟩
  · rw [← tried, noLink]
    obtain ⟨written, next, stepEq, later, leLimit, border, writes⟩ :=
      exists_step wellFormed placed inside true
    refine ⟨marksIn units state.position next, ?_⟩
    change Round source units state (state.step true) _
    rw [stepEq]
    exact ⟨writes.goto next, later, leLimit, border, .refl _⟩
  · rw [← tried, written]
    exact WikiLink.round_write wellFormed keeps placed target
      (WikiLink.encloses_of_read forward.skipsAhead begins read)

theorem marksIn_self (wellFormed : WellFormed source units) (position : Nat) :
    marksIn units position position = [] := by
  apply SourceUnit.marksIn_eq_nil
  intro sourceUnit member inside
  have nonempty := wellFormed.nonempty sourceUnit member
  omega

/-- With a round for every byte that is left, what is written stands for the marks that
are left. -/
theorem exists_tokenizeWith (wellFormed : WellFormed source units)
    (forward : inner.SkipsForward) (keeps : inner.KeepsNesting source units) (rounds : Nat)
    (placed : Placed source units state) (inOrder : state.position ≤ state.limit)
    (enough : state.limit ≤ state.position + rounds) :
    ∃ kinds, Writes state kinds (tokenizeWith [WikiLink.rule] inner rounds state) ∧
      StandsFor kinds (marksIn units state.position state.limit) := by
  induction rounds generalizing state with
  | zero =>
      have atLimit : state.position = state.limit := Nat.le_antisymm inOrder enough
      rw [← atLimit, marksIn_self wellFormed]
      exact ⟨[], writes_flush state, .refl []⟩
  | succ rounds ih =>
      unfold tokenizeWith
      by_cases inside : state.position < state.limit
      · rw [if_pos inside]
        obtain ⟨kinds, round⟩ := exists_round wellFormed forward keeps placed inside rfl
        have limitEq := round.writes.sameRun.limit_eq
        have later := round.later
        obtain ⟨more, writes, standsFor⟩ := ih (round.placed placed)
          (limitEq ▸ round.le_limit) (by omega)
        refine ⟨kinds ++ more, round.writes.trans writes, ?_⟩
        rw [limitEq] at standsFor
        rw [SourceUnit.marksIn_split wellFormed.ordered round.border.clean
          (Nat.le_of_lt later) round.le_limit]
        exact round.standsFor.append standsFor
      · have atLimit : state.position = state.limit := by omega
        rw [if_neg inside, ← atLimit, marksIn_self wellFormed]
        exact ⟨[], writes_flush state, .refl []⟩

/-- However deep a tokenizer may be called inside itself, it keeps the nesting. -/
theorem keepsNesting_withRules (wellFormed : WellFormed source units) (depth : Nat) :
    (withRules [WikiLink.rule] depth).KeepsNesting source units := by
  induction depth with
  | zero =>
      intro state _ _
      exact ⟨[], writes_flush state, fun _ => rfl⟩
  | succ depth ih =>
      intro state placed inOrder
      obtain ⟨kinds, writes, standsFor⟩ := exists_tokenizeWith wellFormed
        (skipsForward_withRules depth) ih (state.limit - state.position) placed inOrder
        (by omega)
      exact ⟨kinds, writes, standsFor.wellNested⟩

end Tokenizer

/-! ## The whole run -/

namespace SourceUnit

theorem WellFormed.first_le {source : String} {units : List SourceUnit}
    (wellFormed : WellFormed source units) {first : SourceUnit} (head : units.head? = some first)
    {sourceUnit : SourceUnit} (member : sourceUnit ∈ units) : first.start ≤ sourceUnit.start := by
  obtain ⟨rest, rfl⟩ := List.head?_eq_some_iff.mp head
  rcases List.mem_cons.mp member with rfl | later
  · exact Nat.le_refl _
  · have nonempty := wellFormed.nonempty first List.mem_cons_self
    have behind := wellFormed.ordered.stop_le_start later
    omega

theorem WellFormed.le_last {source : String} {units : List SourceUnit}
    (wellFormed : WellFormed source units) {last : SourceUnit}
    (final : units.getLast? = some last) {sourceUnit : SourceUnit}
    (member : sourceUnit ∈ units) : sourceUnit.stop ≤ last.stop := by
  obtain ⟨before, rfl⟩ := List.getLast?_eq_some_iff.mp final
  rcases List.mem_append.mp member with earlier | isLast
  · have nonempty := wellFormed.nonempty last (by simp)
    have behind := (List.pairwise_append.mp wellFormed.ordered.pairwise).2.2
      sourceUnit earlier last List.mem_cons_self
    omega
  · rw [List.mem_singleton.mp isLast]

/-- The marks of a whole run are those of all its units. -/
theorem marksIn_run {units : List SourceUnit} {start stop : Nat}
    (within : ∀ sourceUnit ∈ units, start ≤ sourceUnit.start ∧ sourceUnit.stop ≤ stop) :
    marksIn units start stop = units.filterMap mark? := by
  unfold marksIn
  apply List.filterMap_congr
  intro sourceUnit member
  exact if_pos (within sourceUnit member)

end SourceUnit

/-- The tokens of a run are well nested, with those of its wiki links. -/
theorem tokenizeRun_wellNested (source : String) (pages : PageSet) (units : List SourceUnit)
    (wellFormed : WellFormed source units) :
    Token.WellNested (tokenizeRun source pages [WikiLink.rule] units) := by
  unfold tokenizeRun
  split
  · rename_i first last head final
    have firstMember := List.mem_of_head? head
    have lastMember := List.mem_of_getLast? final
    have within : ∀ sourceUnit ∈ units,
        first.start ≤ sourceUnit.start ∧ sourceUnit.stop ≤ last.stop :=
      fun sourceUnit member => ⟨wellFormed.first_le head member, wellFormed.le_last final member⟩
    have placed : Placed source units
        { source, position := first.start, limit := last.stop, pages, units } := by
      refine ⟨rfl, rfl, ⟨(wellFormed.boundaries first firstMember).1, ?_⟩,
        ⟨(wellFormed.boundaries last lastMember).2, ?_⟩⟩
      · intro sourceUnit member _ inside
        exact Nat.not_lt.mpr (within sourceUnit member).1 inside.1
      · intro sourceUnit member _ inside
        exact Nat.not_lt.mpr (within sourceUnit member).2 inside.2
    have inOrder : first.start ≤ last.stop := by
      have nonempty := wellFormed.nonempty first firstMember
      have leLast := (within first firstMember).2
      omega
    obtain ⟨kinds, writes, nested⟩ := Tokenizer.keepsNesting_withRules wellFormed
      (last.stop - first.start + 1) _ placed inOrder
    rw [Token.wellNested_iff_brackets]
    change Token.Kind.WellNested (InlineState.brackets _)
    rw [writes.brackets_eq]
    apply nested
    rw [SourceUnit.marksIn_run within]
    exact wellFormed.nested
  · rfl

/-- The units of a wiki link with emphasis in its label. -/
def emphasizedLabel : List SourceUnit :=
  [⟨0, 4, .text "[[x|" true⟩, ⟨4, 5, .opening (SourceUnit.openingToken .emphasis)⟩,
    ⟨5, 6, .text "y" true⟩, ⟨6, 7, .closing (SourceUnit.closingToken .emphasis)⟩,
    ⟨7, 9, .text "]]" true⟩]

theorem wellFormed_emphasizedLabel : WellFormed "[[x|*y*]]" emphasizedLabel := by
  decide +kernel

theorem tokenizeRun_wellNested_emphasizedLabel :
    (tokenizeRun "[[x|*y*]]" ⟨[]⟩ [WikiLink.rule] emphasizedLabel).map Token.kind =
        [.linkOpen, .emOpen, .text, .emClose, .linkClose] ∧
      Token.WellNested (tokenizeRun "[[x|*y*]]" ⟨[]⟩ [WikiLink.rule] emphasizedLabel) := by
  constructor
  · decide +kernel
  · exact tokenizeRun_wellNested _ ⟨[]⟩ _ wellFormed_emphasizedLabel

end WikiPress
