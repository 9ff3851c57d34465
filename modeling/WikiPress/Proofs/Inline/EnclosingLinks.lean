import WikiPress.Proofs.Inline.LinkLevel

/-!
# Links around a position

The links among the units of a run that are open at a position are those that have been
entered before it and not left.  A balanced part of a well-nested stretch is well nested
itself, and as many links are open behind it as in front.

A step of the cursor counts links exactly: the level that it keeps goes up and down with the
number of links that have been entered since some position.  This holds wherever the cursor
stands, also inside a unit that is read as a whole, as only the ends of units matter.
-/

namespace WikiPress

open Token.Kind (awaited? await? depth?)

namespace SourceUnit

/-- How many links are entered between two positions and not left. -/
def linksSince (units : List SourceUnit) (origin position : Nat) : Nat :=
  ((awaited? [] (marksIn units origin position)).getD []).count .linkClose

/-- How many links among the units of a run are open at a position. -/
def enclosingLinks (units : List SourceUnit) (position : Nat) : Nat :=
  linksSince units 0 position

/-- A part of a run that cuts no unit but literal text, and whose marks are well nested. -/
structure Stretch (units : List SourceUnit) (origin limit : Nat) : Prop where
  inOrder : origin ≤ limit
  atOrigin : Clean units origin
  atLimit : Clean units limit
  nested : Token.Kind.WellNested (marksIn units origin limit)

variable {units passed ahead : List SourceUnit} {origin limit position : Nat}
  {current : SourceUnit}

theorem marksIn_eq_of_stop_le (passedStop : ∀ sourceUnit ∈ units, sourceUnit.stop ≤ position)
    {next : Nat} (later : position ≤ next) :
    marksIn units origin next = marksIn units origin position := by
  apply List.filterMap_congr
  intro sourceUnit member
  have stop := passedStop sourceUnit member
  unfold markIn?
  simp only [stop, Nat.le_trans stop later]

namespace Around

/-- Up to the end of the current unit, only this unit adds marks. -/
theorem marksSince_eq (around : Around units position passed current ahead)
    (ordered : Ordered units) {next : Nat} (later : position ≤ next)
    (leStop : next ≤ current.stop) :
    marksIn units origin next =
      marksIn units origin position ++ (if next < current.stop then []
        else (markIn? origin next current).toList) := by
  have behind := around.lt_stop
  have noneAhead (reach : Nat) (leStop : reach ≤ current.stop) :
      marksIn ahead origin reach = [] := by
    apply (around.units_eq ▸ ordered).append_right.of_cons.marksIn_eq_nil_of_le_start
    intro sourceUnit member
    exact Nat.le_trans leStop (around.ahead_start ordered sourceUnit member)
  have notYet : ∀ reach, reach < current.stop → markIn? origin reach current = none := by
    intro reach before
    exact if_neg (by omega)
  rw [around.units_eq, marksIn_append, marksIn_append, marksIn_cons, marksIn_cons,
    noneAhead next leStop, noneAhead position (Nat.le_of_lt behind), notYet position behind,
    marksIn_eq_of_stop_le around.passed_stop later]
  split
  · rename_i before
    rw [notYet next before]
    simp
  · simp

/-- The current unit adds its mark, as it does not begin before a clean position. -/
theorem marksSince_stop (around : Around units position passed current ahead)
    (ordered : Ordered units) (clean : Clean units origin) (originLe : origin ≤ position) :
    marksIn units origin current.stop =
      marksIn units origin position ++ current.mark?.toList := by
  have behind := around.lt_stop
  rw [around.marksSince_eq ordered (Nat.le_of_lt behind) (Nat.le_refl _),
    if_neg (Nat.lt_irrefl _)]
  cases literal : current.isLiteral with
  | true => rw [markIn?, mark?_of_isLiteral literal, ite_self]
  | false =>
      have notInside := clean current around.mem literal
      rw [markIn?, if_pos ⟨by omega, Nat.le_refl _⟩]

end Around

/-- The marks up to a position come first. -/
theorem exists_marksIn_append (ordered : Ordered units) (positionLe : position ≤ limit) :
    ∃ rest, marksIn units origin limit = marksIn units origin position ++ rest := by
  cases found : units.find? fun sourceUnit => position < sourceUnit.stop with
  | none =>
      have passedStop : ∀ sourceUnit ∈ units, sourceUnit.stop ≤ position := by
        intro sourceUnit member
        simpa using List.find?_eq_none.mp found sourceUnit member
      exact ⟨[], by rw [marksIn_eq_of_stop_le passedStop positionLe, List.append_nil]⟩
  | some current =>
      obtain ⟨passed, ahead, around⟩ := exists_around found
      have noneYet : marksIn (current :: ahead) origin position = [] := by
        apply marksIn_eq_nil
        intro sourceUnit member inside
        have currentStop := around.lt_stop
        have order := (around.units_eq ▸ ordered).append_right
        have nonempty := order.nonempty sourceUnit member
        rcases List.mem_cons.mp member with rfl | later
        · omega
        · have start := order.stop_le_start later
          omega
      refine ⟨marksIn (current :: ahead) origin limit, ?_⟩
      rw [around.units_eq, marksIn_append, marksIn_append,
        marksIn_eq_of_stop_le around.passed_stop positionLe, noneYet, List.append_nil]

theorem linksSince_self {source : String} (wellFormed : WellFormed source units)
    (position : Nat) : linksSince units position position = 0 := by
  rw [linksSince, Tokenizer.marksIn_self wellFormed]
  rfl

namespace Stretch

/-- Up to every position of a stretch, what is entered and not left forms a stack. -/
theorem exists_awaited (stretch : Stretch units origin limit) (ordered : Ordered units)
    (positionLe : position ≤ limit) :
    ∃ stack, awaited? [] (marksIn units origin position) = some stack ∧
      linksSince units origin position = stack.count .linkClose := by
  obtain ⟨rest, marksEq⟩ : ∃ rest,
      marksIn units origin limit = marksIn units origin position ++ rest :=
    exists_marksIn_append ordered positionLe
  have nested := stretch.nested
  unfold Token.Kind.WellNested at nested
  rw [marksEq, Token.Kind.awaited?_append] at nested
  obtain ⟨stack, awaits, _⟩ := Option.bind_eq_some_iff.mp nested
  exact ⟨stack, awaits, by rw [linksSince, awaits, Option.getD_some]⟩

/-- At the end of a stretch, every link is left. -/
theorem linksSince_limit (stretch : Stretch units origin limit) :
    linksSince units origin limit = 0 := by
  have nested := stretch.nested
  unfold Token.Kind.WellNested at nested
  rw [linksSince, nested]
  rfl

/-- A balanced part of a stretch is a stretch, and leaves the open links as they were. -/
theorem part (stretch : Stretch units origin limit) (ordered : Ordered units)
    {start stop : Nat} (originLe : origin ≤ start) (inOrder : start ≤ stop)
    (leLimit : stop ≤ limit) (atStart : Clean units start) (atStop : Clean units stop)
    (counts : depth? 0 (marksIn units start stop) = some 0) :
    Stretch units start stop ∧ linksSince units origin stop = linksSince units origin start := by
  obtain ⟨stack, awaitsStart, startLinks⟩ :=
    stretch.exists_awaited ordered (Nat.le_trans inOrder leLimit)
  obtain ⟨next, awaitsStop, stopLinks⟩ := stretch.exists_awaited ordered leLimit
  have partAwaits : awaited? stack (marksIn units start stop) = some next := by
    rw [marksIn_split ordered atStart originLe inOrder, Token.Kind.awaited?_append,
      awaitsStart] at awaitsStop
    exact awaitsStop
  have nested := Token.Kind.wellNested_of_depth? partAwaits counts
  have same : some next = some stack := partAwaits.symm.trans (nested.awaited? stack)
  exact ⟨⟨inOrder, atStart, atStop, nested⟩, by
    rw [stopLinks, startLinks, Option.some.inj same]⟩

end Stretch

/-- A range that holds all units is a stretch. -/
theorem WellFormed.stretch {source : String} (wellFormed : WellFormed source units)
    (inOrder : origin ≤ limit)
    (within : ∀ sourceUnit ∈ units, origin ≤ sourceUnit.start ∧ sourceUnit.stop ≤ limit) :
    Stretch units origin limit := by
  refine ⟨inOrder, ?atOrigin, ?atLimit, ?nested⟩
  case atOrigin => exact clean_of_le_start fun sourceUnit member => (within sourceUnit member).1
  case atLimit =>
    intro sourceUnit member _ inside
    exact Nat.not_lt.mpr (within sourceUnit member).2 inside.2
  case nested =>
    rw [marksIn_run within]
    exact wellFormed.nested

/-- The links that are open inside a stretch are those around it and those entered since. -/
theorem Stretch.enclosingLinks_eq {source : String} (wellFormed : WellFormed source units)
    (stretch : Stretch units origin limit) (originLe : origin ≤ position)
    (leLimit : position ≤ limit) :
    enclosingLinks units position =
      linksSince units origin position + enclosingLinks units origin := by
  have ordered := wellFormed.ordered
  have whole : Stretch units 0 (max origin source.utf8ByteSize) := by
    refine wellFormed.stretch (Nat.zero_le _) fun sourceUnit member => ⟨Nat.zero_le _, ?_⟩
    exact Nat.le_trans (Text.le_utf8ByteSize_of_isBoundary
      (wellFormed.boundaries sourceUnit member).2) (Nat.le_max_right _ _)
  obtain ⟨around, awaitsAround, aroundLinks⟩ :=
    whole.exists_awaited ordered (Nat.le_max_left origin _)
  obtain ⟨since, awaitsSince, sinceLinks⟩ := stretch.exists_awaited ordered leLimit
  have awaits : awaited? [] (marksIn units 0 position) = some (since ++ around) := by
    rw [marksIn_split ordered stretch.atOrigin (Nat.zero_le origin) originLe,
      Token.Kind.awaited?_append, awaitsAround]
    exact Token.Kind.awaited?_append_stack awaitsSince around
  rw [sinceLinks, enclosingLinks, enclosingLinks, aroundLinks, linksSince, awaits,
    Option.getD_some, List.count_append]

end SourceUnit

open SourceUnit

/-! ## Counting -/

namespace InlineState

/-- A cursor in a part of a run whose level says how many links have been entered and not
left, above some that are open throughout.  It may have been moved beyond the end. -/
structure CountsFrom (source : String) (units : List SourceUnit) (origin limit base : Nat)
    (state : InlineState) : Prop where
  source_eq : state.source = source
  units_eq : state.units = units
  limit_eq : state.limit = limit
  origin_le : origin ≤ state.position
  level_eq : state.linkLevel = base + linksSince units origin (min state.position limit)

variable {source : String} {units : List SourceUnit} {origin limit base : Nat}
  {state after : InlineState}

/-- Behind the end of a stretch, no link but those around it is open. -/
theorem CountsFrom.level_of_limit_le (counts : CountsFrom source units origin limit base state)
    (stretch : Stretch units origin limit) (atEnd : limit ≤ state.position) :
    state.linkLevel = base := by
  rw [counts.level_eq, Nat.min_eq_right atEnd, stretch.linksSince_limit, Nat.add_zero]

/-- Where no mark is passed, the count stays. -/
theorem CountsFrom.move (counts : CountsFrom source units origin limit base state)
    (sameRun : SameRun state after) (levelEq : after.linkLevel = state.linkLevel)
    (later : state.position ≤ after.position)
    (linksEq : linksSince units origin (min after.position limit) =
      linksSince units origin (min state.position limit)) :
    CountsFrom source units origin limit base after :=
  ⟨sameRun.source_eq.trans counts.source_eq, sameRun.units_eq.trans counts.units_eq,
    sameRun.limit_eq.trans counts.limit_eq, Nat.le_trans counts.origin_le later,
    by rw [levelEq, linksEq, counts.level_eq]⟩

section Step

variable (wellFormed : WellFormed source units)
  (stretch : Stretch units origin limit) (counts : CountsFrom source units origin limit base state)
  (inside : state.position < limit) {passed ahead : List SourceUnit} {current : SourceUnit}
  (around : Around units state.position passed current ahead)
include wellFormed counts inside around

/-- Inside the current unit the count stays, and up to its end if it has no mark. -/
theorem CountsFrom.move_inside (sameRun : SameRun state after)
    (levelEq : after.linkLevel = state.linkLevel) (later : state.position ≤ after.position)
    (leStop : min after.position limit ≤ current.stop)
    (passes : min after.position limit < current.stop ∨ current.mark? = none) :
    CountsFrom source units origin limit base after := by
  apply counts.move sameRun levelEq later
  have noneYet : (if min after.position limit < current.stop then []
      else (markIn? origin (min after.position limit) current).toList) = [] := by
    rcases passes with before | noMark
    · exact if_pos before
    · rw [markIn?, noMark, ite_self]
      exact ite_self _
  unfold linksSince
  rw [Nat.min_eq_left (Nat.le_of_lt inside),
    around.marksSince_eq wellFormed.ordered (by omega) leStop, noneYet, List.append_nil]

include stretch

/-- A unit with a token is passed, and its token is counted. -/
theorem CountsFrom.passToken {token : Token}
    (content : current.content = .opening token ∨ current.content = .closing token ∨
      current.content = .leaf token)
    (reached : ¬ state.position < current.start) :
    CountsFrom source units origin limit base (state.passToken true token current.stop) := by
  have ordered := wellFormed.ordered
  have behind := around.lt_stop
  have notLiteral : current.isLiteral = false := by
    unfold isLiteral
    rcases content with content | content | content <;> rw [content]
  have notCut := stretch.atLimit current around.mem notLiteral
  have leLimit : current.stop ≤ limit := by omega
  obtain ⟨stack, awaits, links⟩ := stretch.exists_awaited ordered (Nat.le_of_lt inside)
  obtain ⟨next, awaitsNext, nextLinks⟩ := stretch.exists_awaited ordered leLimit
  have awaitsToken : await? stack token.kind = some next := by
    rw [around.marksSince_stop ordered stretch.atOrigin counts.origin_le,
      Token.Kind.awaited?_append, awaits, Option.bind_some,
      ← (wellFormed.fits current around.mem).brackets_eq content, Token.brackets,
      Token.awaited?_filter, List.map_singleton, Token.Kind.awaited?_cons] at awaitsNext
    obtain ⟨middle, awaitsOne, same⟩ := Option.bind_eq_some_iff.mp awaitsNext
    exact awaitsOne.trans ((Token.Kind.awaited?_nil middle).symm.trans same)
  have counted := linkLevelAfter_eq_add_count awaitsToken base
  rw [← links, ← nextLinks, ← Nat.min_eq_left (Nat.le_of_lt inside), ← counts.level_eq] at counted
  let leveled := { state with linkLevel := linkLevelAfter state.linkLevel token }
  have sameRun := sameRun_push leveled token
  refine ⟨sameRun.source_eq.trans counts.source_eq, sameRun.units_eq.trans counts.units_eq,
    sameRun.limit_eq.trans counts.limit_eq,
    Nat.le_trans counts.origin_le (Nat.le_of_lt behind), ?_⟩
  change (leveled.push token).linkLevel = _
  rw [push_linkLevel]
  change linkLevelAfter state.linkLevel token =
    base + linksSince units origin (min current.stop limit)
  rw [Nat.min_eq_left leLimit, counted]

end Step

/-- A step counts the links that it passes. -/
theorem CountsFrom.step (wellFormed : WellFormed source units)
    (stretch : Stretch units origin limit)
    (counts : CountsFrom source units origin limit base state)
    (inside : state.position < limit) :
    CountsFrom source units origin limit base (state.step true) := by
  have ordered := wellFormed.ordered
  unfold InlineState.step
  cases found : state.currentUnit? with
  | none =>
      have passedStop : ∀ sourceUnit ∈ units, sourceUnit.stop ≤ state.position := by
        intro sourceUnit member
        simpa using List.find?_eq_none.mp found sourceUnit (counts.units_eq ▸ member)
      refine counts.move ⟨rfl, rfl, rfl⟩ rfl (counts.limit_eq ▸ Nat.le_of_lt inside) ?_
      change linksSince units origin (min state.limit limit) = _
      unfold linksSince
      rw [counts.limit_eq, Nat.min_self, Nat.min_eq_left (Nat.le_of_lt inside),
        marksIn_eq_of_stop_le passedStop (Nat.le_of_lt inside)]
  | some current =>
      unfold currentUnit? at found
      rw [counts.units_eq] at found
      obtain ⟨passed, ahead, around⟩ := exists_around found
      have behind := around.lt_stop
      simp only
      split
      · -- the gap before the current unit
        have nonempty := ordered.nonempty current around.mem
        let next := max (min current.start state.limit) (state.position + 1)
        have before : min next limit < current.stop := by omega
        exact counts.move_inside wellFormed inside around ⟨rfl, rfl, rfl⟩ rfl
          (by change state.position ≤ next; omega) (Nat.le_of_lt before) (.inl before)
      · rename_i reached
        cases content : current.content with
        | text text isLiteral =>
            have noMark : current.mark? = none := by rw [mark?, content]
            have whole {after : InlineState} (sameRun : SameRun state after)
                (levelEq : after.linkLevel = state.linkLevel)
                (positionEq : after.position = current.stop) :
                CountsFrom source units origin limit base after :=
              counts.move_inside wellFormed inside around sameRun levelEq (by omega) (by omega)
                (.inr noMark)
            cases isLiteral with
            | true =>
                simp only [if_true]
                split
                · rename_i char charEq
                  have leStop :=
                    Text.stop_le_of_charAt? (wellFormed.boundaries current around.mem).2 behind
                      (counts.source_eq ▸ charEq)
                  exact counts.move_inside wellFormed inside around ⟨rfl, rfl, rfl⟩ rfl
                    (Nat.le_add_right _ _) (Nat.le_trans (Nat.min_le_left _ _) leStop)
                    (.inr noMark)
                · exact whole ⟨rfl, rfl, rfl⟩ rfl rfl
            | false =>
                simp only [Bool.true_and]
                split <;> exact whole ⟨rfl, rfl, rfl⟩ rfl rfl
        | opening token =>
            exact counts.passToken wellFormed stretch inside around (.inl content) reached
        | closing token =>
            exact counts.passToken wellFormed stretch inside around (.inr (.inl content)) reached
        | leaf token =>
            exact counts.passToken wellFormed stretch inside around (.inr (.inr content)) reached

end InlineState

end WikiPress
