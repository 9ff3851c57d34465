import WikiPress.Proofs.Inline.Conservation
import WikiPress.Proofs.Pipe.Separators

/-!
# The cursor moves on

While a run is read, the cursor stands between two characters, not behind the end of the run.
The loop and the search for closing brackets move it on in every turn, so that both come to an
end.

The search may bring the cursor to stand inside a unit that is read as a whole, where the loop
never stands.  A step leads to the end of the unit then, which is not behind the limit, as the
limit cuts no unit but literal text.
-/

namespace WikiPress

open SourceUnit (WellFormed Border Around Stretch runStart runStop)
open Tokenizer (withRules afterRound Visits Asks)

namespace InlineState

/-! ## Turns -/

/-- The cursor has been moved on, to a place between two characters and not behind the limit. -/
structure MovesOn (before after : InlineState) : Prop extends SameRun before after where
  later : before.position < after.position
  le_limit : after.position ≤ before.limit
  boundary : Text.isBoundary before.source after.position = true

/-- A loop that takes turns as long as it goes on comes to its end. -/
inductive LoopEnds (GoesOn : InlineState → Prop) (turn : InlineState → InlineState) :
    InlineState → InlineState → Prop where
  | stop {state : InlineState} (stops : ¬ GoesOn state) : LoopEnds GoesOn turn state state
  | turn {state final : InlineState} (goesOn : GoesOn state)
      (rest : LoopEnds GoesOn turn (turn state) final) : LoopEnds GoesOn turn state final

/-- Whether a run is read further. -/
def IsInside (state : InlineState) : Prop :=
  state.position < state.limit

/-- A cursor between two characters in a source that is divided into units, with a border at
its limit. -/
structure Rests (source : String) (units : List SourceUnit) (state : InlineState) : Prop where
  source_eq : state.source = source
  units_eq : state.units = units
  boundary : Text.isBoundary source state.position = true
  inOrder : state.position ≤ state.limit
  atLimit : Border source units state.limit

variable {source : String} {units : List SourceUnit} {state after : InlineState}

theorem Placed.rests (placed : Placed source units state)
    (inOrder : state.position ≤ state.limit) : Rests source units state :=
  ⟨placed.source_eq, placed.units_eq, placed.atPosition.boundary, inOrder, placed.atLimit⟩

theorem Rests.of_movesOn (rests : Rests source units state) (movesOn : state.MovesOn after) :
    Rests source units after := by
  refine ⟨movesOn.source_eq.trans rests.source_eq, movesOn.units_eq.trans rests.units_eq,
    rests.source_eq ▸ movesOn.boundary, ?_, ?_⟩
  · rw [movesOn.limit_eq]
    exact movesOn.le_limit
  · rw [movesOn.limit_eq]
    exact rests.atLimit

/-- In front of the limit a character is read, which ends before the next boundary. -/
theorem Rests.exists_charAt? (rests : Rests source units state) (inside : state.IsInside) :
    ∃ char, Text.charAt? state.source state.position = some char ∧
      Text.isBoundary source (state.position + char.utf8Size) = true ∧
      state.position + char.utf8Size ≤ state.limit := by
  have limitLe := Text.le_utf8ByteSize_of_isBoundary rests.atLimit.boundary
  obtain ⟨char, charEq, boundary, next⟩ :=
    Text.exists_charAt? rests.boundary (Nat.lt_of_lt_of_le inside limitLe)
  exact ⟨char, rests.source_eq ▸ charEq, boundary, next _ rests.atLimit.boundary inside⟩

/-- A step leads on, wherever between two characters the cursor stands. -/
theorem Rests.movesOn_step (wellFormed : WellFormed source units)
    (rests : Rests source units state) (inside : state.IsInside) (emit : Bool) :
    state.MovesOn (state.step emit) := by
  have inFront : state.position < state.limit := inside
  suffices lands : (state.step false).position ≤ state.limit ∧
      Text.isBoundary source (state.step false).position = true by
    rw [← step_position state emit] at lands
    exact ⟨(extends_step state emit).toSameRun, position_lt_step inside emit, lands.1,
      rests.source_eq ▸ lands.2⟩
  unfold step
  cases found : state.currentUnit? with
  | none => exact ⟨Nat.le_refl _, rests.atLimit.boundary⟩
  | some current =>
      unfold currentUnit? at found
      rw [rests.units_eq] at found
      obtain ⟨passed, ahead, around⟩ := SourceUnit.exists_around found
      obtain ⟨startBoundary, stopBoundary⟩ := wellFormed.boundaries current around.mem
      have behind := around.lt_stop
      simp only
      split
      · -- the gap before the current unit
        have nextEq : max (min current.start state.limit) (state.position + 1) =
            min current.start state.limit := by omega
        rw [nextEq]
        refine ⟨Nat.min_le_right _ _, ?_⟩
        change Text.isBoundary source (min current.start state.limit) = true
        rcases Nat.le_total current.start state.limit with startLe | limitLe
        · rwa [Nat.min_eq_left startLe]
        · rw [Nat.min_eq_right limitLe]
          exact rests.atLimit.boundary
      · rename_i reached
        have whole (notLiteral : current.isLiteral = false) :
            current.stop ≤ state.limit ∧ Text.isBoundary source current.stop = true := by
          have notCut := rests.atLimit.clean current around.mem notLiteral
          exact ⟨by omega, stopBoundary⟩
        cases content : current.content with
        | text text isLiteral =>
            cases isLiteral with
            | true =>
                obtain ⟨char, charEq, boundary, leLimit⟩ := rests.exists_charAt? inside
                simp only [charEq]
                exact ⟨leLimit, boundary⟩
            | false => exact whole (by rw [SourceUnit.isLiteral, content])
        | opening token => exact whole (by rw [SourceUnit.isLiteral, content])
        | closing token => exact whole (by rw [SourceUnit.isLiteral, content])
        | leaf token => exact whole (by rw [SourceUnit.isLiteral, content])

end InlineState

open InlineState

/-! ## The search for closing brackets -/

namespace WikiLink

/-- Whether the search for closing brackets goes on. -/
def GoesOn (limit : Nat) (state : InlineState) : Prop :=
  state.position + 1 < limit ∧
    ¬ (Text.byteAt? state.source state.position = some ']' ∧
      Text.byteAt? state.source (state.position + 1) = some ']')

/-- The states to which the search for closing brackets comes from the opening ones. -/
inductive Searched (tokenizer : Tokenizer) (asked : InlineState) : InlineState → Prop where
  | start : Searched tokenizer asked (asked.goto (asked.position + 2))
  | skip {state : InlineState} (before : Searched tokenizer asked state)
      (goesOn : GoesOn asked.limit state) : Searched tokenizer asked (tokenizer.skip state)

/-- A range inside a content that begins and ends between two characters. -/
structure CutInside (source : String) (content range : Span) : Prop where
  start_le : content.start ≤ range.start
  cut : Cut source range.start range.stop
  le_stop : range.stop ≤ content.stop

/-- All that is cut out of the source for a link at a place: its content, which has a first
segment, and in the content the target and the label. -/
structure CutsInside (source : String) (place : Place) : Prop where
  content : Cut source (place.start + 2) place.close
  segments : Pipe.ranges (Text.slice source (place.start + 2) place.close) (some 2) ≠ []
  target : CutInside source ⟨place.start + 2, place.close⟩ (place.parts source).1
  label : ∀ range ∈ (place.parts source).2,
    CutInside source ⟨place.start + 2, place.close⟩ range

variable {source : String} {units : List SourceUnit} {tokenizer : Tokenizer}
  {asked state : InlineState}

/-- The ranges of the segments of a content are cut out of it. -/
theorem cutInside_of_mem_ranges {start stop : Nat} (content : Cut source start stop)
    (limit : Option Nat) {range : Span}
    (member : range ∈ Pipe.ranges (Text.slice source start stop) limit) :
    CutInside source ⟨start, stop⟩ ⟨start + range.start, start + range.stop⟩ := by
  obtain ⟨before, behind, splits⟩ := Text.isBoundary_iff.mp content.atStart
  obtain ⟨middle, rest, rfl, stopEq⟩ := splits.exists_middle content.atStop content.inOrder
  have slice : (Text.slice source start stop).toList = middle := by
    rw [← stopEq, splits.slice_eq, String.toList_ofList]
  have moved {offset : Nat}
      (boundary : Text.isBoundary (Text.slice source start stop) offset = true) :
      Text.isBoundary source (start + offset) = true := by
    obtain ⟨first, second, inner⟩ := Text.isBoundary_iff.mp boundary
    have middleEq : middle = first ++ second := slice.symm.trans inner.toList_eq
    rw [middleEq, List.append_assoc] at splits
    rw [← inner.byteLength_eq]
    exact splits.advance.isBoundary
  have whole : Text.SplitsAt (Text.slice source start stop) 0 []
      (['|'].intercalate (Pipe.segments limit (Text.slice source start stop).toList)) :=
    ⟨(Pipe.intercalate_segments limit _).symm, rfl⟩
  obtain ⟨inOrder, atStart, atStop⟩ :=
    (Pipe.slices_rangesFrom (Pipe.cut_ne_nil _ _ _) whole).2 range member
  have stopLe := Text.le_utf8ByteSize_of_isBoundary atStop
  rw [← Text.byteLength_toList, slice] at stopLe
  refine ⟨Nat.le_add_right _ _,
    ⟨Nat.add_le_add_left inOrder start, moved atStart, moved atStop⟩, ?_⟩
  change start + range.stop ≤ stop
  omega

theorem cutsInside_of_cut {start close : Nat} (content : Cut source (start + 2) close) :
    CutsInside source ⟨start, close⟩ := by
  have inside (range : Span)
      (member : range ∈ Pipe.ranges (Text.slice source (start + 2) close) (some 2)) :=
    cutInside_of_mem_ranges content (some 2) member
  cases found : Pipe.ranges (Text.slice source (start + 2) close) (some 2) with
  | nil =>
      have none : (Pipe.ranges (Text.slice source (start + 2) close) (some 2)).length = 0 := by
        rw [found, List.length_nil]
      rw [Pipe.ranges, Pipe.length_rangesFrom] at none
      exact absurd (List.length_eq_zero_iff.mp none) (Pipe.cut_ne_nil _ _ _)
  | cons target labels =>
      rw [found] at inside
      have partsEq : Place.parts source ⟨start, close⟩ =
          (⟨start + 2 + target.start, start + 2 + target.stop⟩,
            labels.head?.map fun span => ⟨start + 2 + span.start, start + 2 + span.stop⟩) := by
        simp only [Place.parts, ranges, found]
      refine ⟨content, by rw [found]; exact List.cons_ne_nil _ _, ?target, ?label⟩
      case target =>
        rw [partsEq]
        exact inside target List.mem_cons_self
      case label =>
        rw [partsEq]
        intro range member
        obtain ⟨label, first, rfl⟩ := Option.map_eq_some_iff.mp member
        exact inside label (List.mem_cons_of_mem _ (List.mem_of_head? first))

/-- Where skipping leads on, the search ends, with room for two brackets if it has found them. -/
theorem exists_loopEnds_findClose
    (skips : ∀ state, Rests source units state → state.IsInside →
      state.MovesOn (tokenizer.skip state))
    (fuel : Nat) (rests : Rests source units state)
    (enough : state.limit ≤ state.position + fuel) :
    ∃ final, LoopEnds (GoesOn state.limit) tokenizer.skip state final ∧
      findClose tokenizer state.limit fuel state =
        (if final.position + 1 < state.limit then some final.position else none, final) ∧
      Rests source units final ∧ state.position ≤ final.position := by
  induction fuel generalizing state with
  | zero =>
      have noRoom : ¬ state.position + 1 < state.limit := by omega
      refine ⟨state, .stop fun goesOn => noRoom goesOn.1, ?_, rests, Nat.le_refl _⟩
      rw [if_neg noRoom]
      rfl
  | succ fuel ih =>
      unfold findClose
      by_cases room : state.position + 1 < state.limit
      · rw [if_pos room]
        by_cases brackets : (Text.byteAt? state.source state.position == some ']'
            && Text.byteAt? state.source (state.position + 1) == some ']') = true
        · rw [if_pos brackets]
          simp only [Bool.and_eq_true, beq_iff_eq] at brackets
          refine ⟨state, .stop fun goesOn => goesOn.2 brackets, ?_, rests, Nat.le_refl _⟩
          rw [if_pos room]
        · rw [if_neg brackets]
          simp only [Bool.and_eq_true, beq_iff_eq] at brackets
          have movesOn := skips state rests (Nat.lt_of_succ_lt room)
          have later := movesOn.later
          have limitEq := movesOn.limit_eq
          obtain ⟨final, ends, found, finalRests, nextLe⟩ :=
            ih (rests.of_movesOn movesOn) (by omega)
          rw [limitEq] at ends found
          exact ⟨final, .turn ⟨room, brackets⟩ ends, found, finalRests, by omega⟩
      · rw [if_neg room]
        refine ⟨state, .stop fun goesOn => room goesOn.1, ?_, rests, Nat.le_refl _⟩
        rw [if_neg room]

/-- Behind two opening brackets the cursor stands between two characters. -/
theorem rests_of_mayBegin (placed : Placed source units asked) (begins : mayBegin asked = true) :
    Rests source units (asked.goto (asked.position + 2)) := by
  have opened := (of_mayBegin begins).2
  unfold mayBegin at begins
  simp only [Bool.and_eq_true, decide_eq_true_eq] at begins
  refine ⟨placed.source_eq, placed.units_eq, ?_, ?_, placed.atLimit⟩
  · exact placed.source_eq ▸ (boundaries_of_byteAt? opened (by decide)).2
  · change asked.position + 2 ≤ asked.limit
    omega

end WikiLink

/-! ## Runs -/

namespace Tokenizer

/-- The states to which the loop and the search for closing brackets come while a run is read,
each with the depth at which it is. -/
inductive Reaches (rules : List InlineRule) (depth : Nat) (start : InlineState) (inner : Nat) :
    InlineState → Prop where
  | loop {state : InlineState} (visited : Visits rules depth start inner state) :
      Reaches rules depth start inner state
  | search {asked state : InlineState} (asks : Asks rules depth start inner WikiLink.rule asked)
      (noneOpen : asked.linkLevel = 0) (begins : WikiLink.mayBegin asked = true)
      (searched : WikiLink.Searched (withRules rules inner) asked state) :
      Reaches rules depth start inner state

variable {source : String} {units : List SourceUnit} {rules : List InlineRule}
  {state : InlineState} (known : rules = [] ∨ rules = [WikiLink.rule])
include known

/-- No token can be skipped for a rule, so that what is skipped is a step. -/
theorem skip_eq_step (depth : Nat) (inside : state.IsInside) :
    (withRules rules (depth + 1)).skip state = state.step false := by
  have inFront : state.position < state.limit := inside
  change skipWith rules (withRules rules depth) state = _
  unfold skipWith
  rw [if_pos inFront]
  rcases known with rfl | rfl <;> rfl

theorem skipsForward_of_known (depth : Nat) : (withRules rules depth).SkipsForward := by
  rcases known with rfl | rfl
  · exact skipsForward_withRules_of_keepsContract (by simp) depth
  · exact skipsForward_withRules depth

/-- Only the rule for wiki links is ever asked, and it is asked first. -/
theorem eq_of_asked {inner : Tokenizer} {asked : InlineState}
    (asksAt : InlineRule.Asked inner rules state WikiLink.rule asked) :
    rules = [WikiLink.rule] ∧ asked = state := by
  rcases known with rfl | rfl
  · cases asksAt
  · cases asksAt with
    | first => exact ⟨rfl, rfl⟩
    | later _ behind => cases behind

/-- A round leads from a border to a later one and counts the links that it passes. -/
theorem placed_afterRound (wellFormed : WellFormed source units)
    (placed : Placed source units state) (inside : state.IsInside) (depth : Nat) :
    Placed source units (afterRound rules (withRules rules depth) state) ∧
      (afterRound rules (withRules rules depth) state).limit = state.limit ∧
      state.position < (afterRound rules (withRules rules depth) state).position ∧
      (afterRound rules (withRules rules depth) state).position ≤ state.limit := by
  rcases known with rfl | rfl
  · exact placed_step wellFormed placed inside
  · obtain ⟨kinds, round⟩ := exists_round wellFormed (skipsForward_withRules depth)
      (keepsNesting_withRules wellFormed depth) placed inside rfl
    exact ⟨round.placed placed, round.writes.sameRun.limit_eq, round.later, round.le_limit⟩

theorem countsFrom_afterRound_of_known (wellFormed : WellFormed source units)
    {origin limit base : Nat} (stretch : Stretch units origin limit)
    (counts : CountsFrom source units origin limit base state) (inside : state.IsInside)
    (depth : Nat) :
    CountsFrom source units origin limit base
      (afterRound rules (withRules rules depth) state) := by
  rcases known with rfl | rfl
  · exact counts.step wellFormed stretch (counts.limit_eq ▸ inside)
  · exact countsFrom_afterRound_wikiLink wellFormed stretch counts inside depth

/-- With a round for every byte that is left, the loop comes to its end at the limit. -/
theorem exists_loopEnds_tokenizeWith (wellFormed : WellFormed source units) (depth rounds : Nat)
    (placed : Placed source units state) (inOrder : state.position ≤ state.limit)
    (enough : state.limit ≤ state.position + rounds) :
    ∃ final, LoopEnds IsInside (afterRound rules (withRules rules depth)) state final ∧
      final.position = final.limit ∧
      tokenizeWith rules (withRules rules depth) rounds state = final.flush := by
  induction rounds generalizing state with
  | zero => exact ⟨state, .stop (Nat.not_lt.mpr enough), Nat.le_antisymm inOrder enough, rfl⟩
  | succ rounds ih =>
      unfold tokenizeWith
      by_cases inside : state.position < state.limit
      · obtain ⟨next, limitEq, later, leLimit⟩ :=
          placed_afterRound known wellFormed placed inside depth
        obtain ⟨final, ends, atLimit, written⟩ := ih next (limitEq ▸ leLimit) (by omega)
        rw [if_pos inside]
        exact ⟨final, .turn inside ends, atLimit, written⟩
      · rw [if_neg inside]
        exact ⟨state, .stop inside, Nat.le_antisymm inOrder (Nat.le_of_not_lt inside), rfl⟩

/-- Skipping leads on, wherever between two characters the cursor stands. -/
theorem movesOn_skip (wellFormed : WellFormed source units) {inner : Nat} (room : 0 < inner)
    (rests : Rests source units state) (inside : state.IsInside) :
    state.MovesOn ((withRules rules inner).skip state) := by
  obtain ⟨depth, rfl⟩ := Nat.exists_eq_succ_of_ne_zero (Nat.ne_of_gt room)
  rw [skip_eq_step known depth inside]
  exact rests.movesOn_step wellFormed inside false

omit known

/-- A cursor in a run that is read up to a border.  Where no link is open around what is read,
the tokenizer may be called inside itself as often as the run has bytes. -/
structure Within (source : String) (units : List SourceUnit) (inner : Nat) (state : InlineState) :
    Prop where
  placed : Placed source units state
  inOrder : state.position ≤ state.limit
  limit_le : state.limit ≤ runStop units
  room : 0 < inner
  counts : ∃ origin base, runStart units ≤ origin ∧ Stretch units origin state.limit ∧
    CountsFrom source units origin state.limit base state ∧
    (base = 0 → runStop units < runStart units + inner)

theorem within_start (pages : PageSet) (wellFormed : WellFormed source units) :
    Within source units (runStop units - runStart units + 1)
      (InlineState.ofRun source pages units) := by
  have ends : Placed source units (InlineState.ofRun source pages units) ∧
      Stretch units (runStart units) (runStop units) := by
    rcases eq_or_ne units [] with rfl | nonempty
    · have boundary : Text.isBoundary source 0 = true :=
        Text.isBoundary_iff.mpr ⟨[], source.toList, rfl, rfl⟩
      exact ⟨⟨rfl, rfl, ⟨boundary, nofun⟩, ⟨boundary, nofun⟩⟩, ⟨Nat.le_refl _, nofun, nofun, rfl⟩⟩
    · obtain ⟨placed, stretch, _⟩ := exists_tokenizeRun_of_output pages wellFormed nonempty
      exact ⟨placed, stretch⟩
  obtain ⟨placed, stretch⟩ := ends
  have inOrder := stretch.inOrder
  have counts : CountsFrom source units (runStart units) (runStop units) 0
      (InlineState.ofRun source pages units) :=
    @countsFrom_self source units (InlineState.ofRun source pages units) wellFormed rfl rfl stretch
  exact ⟨placed, inOrder, Nat.le_refl _, Nat.succ_pos _, runStart units, 0, Nat.le_refl _, stretch,
    counts, fun _ => by omega⟩

/-- Where a link may begin and none is open, there is room for its label. -/
theorem Within.room_of_begins {inner : Nat} (within : Within source units (inner + 1) state)
    (noneOpen : state.linkLevel = 0) (begins : WikiLink.mayBegin state = true) : 0 < inner := by
  obtain ⟨origin, base, startLe, _, counts, room⟩ := within.counts
  have originLe := counts.origin_le
  have limitLe := within.limit_le
  have noneAround : base = 0 := by
    have level := counts.level_eq
    omega
  have few := room noneAround
  unfold WikiLink.mayBegin at begins
  simp only [Bool.and_eq_true, decide_eq_true_eq] at begins
  omega

include known

/-- What holds in front of the run holds wherever the loop comes. -/
theorem Visits.within (wellFormed : WellFormed source units) {depth inner : Nat}
    {start : InlineState} (first : Within source units depth start)
    (visited : Visits rules depth start inner state) : Within source units inner state := by
  induction visited with
  | start => exact first
  | @round inner state before inside ih =>
      obtain ⟨placed, limitEq, later, leLimit⟩ :=
        placed_afterRound known wellFormed ih.placed inside inner
      obtain ⟨origin, base, startLe, stretch, counts, room⟩ := ih.counts
      refine ⟨placed, limitEq ▸ leLimit, limitEq ▸ ih.limit_le, ih.room, origin, base, startLe, ?_⟩
      rw [limitEq]
      exact ⟨stretch, countsFrom_afterRound_of_known known wellFormed stretch counts inside inner,
        room⟩
  | @label inner state asked back target label stop before inside asksAt noneOpen begins found ih =>
      obtain ⟨-, rfl⟩ := eq_of_asked known asksAt
      have forward := skipsForward_of_known known inner
      obtain rfl : back = asked := by rw [← WikiLink.read_state_eq forward asked, found]
      have encloses := WikiLink.encloses_of_read forward.skipsAhead begins found
      obtain ⟨startLe, replaceable, leStop⟩ := encloses.label label rfl
      obtain ⟨atStart, atStop, _⟩ := replaceable.borders wellFormed ih.placed
      obtain ⟨origin, base, runLe, stretch, counts, room⟩ := ih.counts
      obtain ⟨_, stretches⟩ := WikiLink.stretch_of_read wellFormed stretch counts.units_eq
        counts.origin_le (Nat.le_refl _) forward.skipsAhead begins found
      have sourceEq := (WikiLink.insideLabel_source back target label).trans ih.placed.source_eq
      have unitsEq := (WikiLink.insideLabel_units back target label).trans ih.placed.units_eq
      have labelCounts := countsFrom_self wellFormed sourceEq unitsEq (stretches label rfl)
      have labelLe : label.stop ≤ back.limit := Nat.le_trans leStop encloses.stop_le
      refine ⟨⟨sourceEq, unitsEq, atStart, atStop⟩, replaceable.cut.inOrder,
        Nat.le_trans labelLe ih.limit_le, ih.room_of_begins noneOpen begins,
        label.start, _, ?_, stretches label rfl, labelCounts, ?_⟩
      · exact Nat.le_trans (Nat.le_trans runLe counts.origin_le) startLe
      · intro none
        rw [WikiLink.insideLabel_linkLevel] at none
        omega

/-- Wherever the search comes, the cursor stands between two characters. -/
theorem rests_of_searched (wellFormed : WellFormed source units) {inner : Nat} (room : 0 < inner)
    {asked : InlineState} (placed : Placed source units asked)
    (begins : WikiLink.mayBegin asked = true)
    (searched : WikiLink.Searched (withRules rules inner) asked state) :
    Rests source units state ∧ state.limit = asked.limit := by
  induction searched with
  | start => exact ⟨WikiLink.rests_of_mayBegin placed begins, rfl⟩
  | @skip state before goesOn ih =>
      obtain ⟨rests, limitEq⟩ := ih
      have inside : state.position < state.limit := by
        rw [limitEq]
        exact Nat.lt_of_succ_lt goesOn.1
      have movesOn := movesOn_skip known wellFormed room rests inside
      exact ⟨rests.of_movesOn movesOn, movesOn.limit_eq.trans limitEq⟩

/-- At every state that is reached, the cursor stands between two characters of what is read. -/
theorem Reaches.rests (wellFormed : WellFormed source units) {depth inner : Nat}
    {start : InlineState} (first : Within source units depth start)
    (reached : Reaches rules depth start inner state) :
    Rests source units state ∧ state.limit ≤ runStop units ∧ 0 < inner := by
  cases reached with
  | loop visited =>
      have within := visited.within known wellFormed first
      exact ⟨within.placed.rests within.inOrder, within.limit_le, within.room⟩
  | search asks noneOpen begins searched =>
      obtain ⟨asking, visited, _, asksAt⟩ := asks
      obtain ⟨-, rfl⟩ := eq_of_asked known asksAt
      have within := visited.within known wellFormed first
      have room := within.room_of_begins noneOpen begins
      obtain ⟨rests, limitEq⟩ :=
        rests_of_searched known wellFormed room within.placed begins searched
      exact ⟨rests, limitEq ▸ within.limit_le, room⟩

/-- The loop comes to its end from every state that it visits. -/
theorem Visits.exists_loopEnds (wellFormed : WellFormed source units) {depth inner : Nat}
    {start : InlineState} (first : Within source units depth start)
    (visited : Visits rules depth start inner state) :
    ∃ final, LoopEnds IsInside (afterRound rules (withRules rules (inner - 1))) state final ∧
      final.position = final.limit ∧ (withRules rules inner).tokenize state = final.flush := by
  have within := visited.within known wellFormed first
  obtain ⟨depth, rfl⟩ := Nat.exists_eq_succ_of_ne_zero (Nat.ne_of_gt within.room)
  exact exists_loopEnds_tokenizeWith known wellFormed depth (state.limit - state.position)
    within.placed within.inOrder (by omega)

/-- The search for closing brackets comes to its end wherever it is begun, and the link is read
up to the brackets that it has found. -/
theorem Asks.exists_loopEnds (wellFormed : WellFormed source units) {depth inner : Nat}
    {start asked : InlineState} (first : Within source units depth start)
    (asks : Asks rules depth start inner WikiLink.rule asked) (noneOpen : asked.linkLevel = 0)
    (begins : WikiLink.mayBegin asked = true) :
    ∃ final, LoopEnds (WikiLink.GoesOn asked.limit) (withRules rules inner).skip
        (asked.goto (asked.position + 2)) final ∧
      WikiLink.read (withRules rules inner) asked =
        (if final.position + 1 < asked.limit then WikiLink.linkTo? asked final.position
          else none, asked) ∧
      (final.position + 1 < asked.limit →
        WikiLink.CutsInside source ⟨asked.position, final.position⟩) := by
  obtain ⟨asking, visited, _, asksAt⟩ := asks
  obtain ⟨-, rfl⟩ := eq_of_asked known asksAt
  have within := visited.within known wellFormed first
  have rests := WikiLink.rests_of_mayBegin within.placed begins
  have skips (state : InlineState) (rests : Rests source units state) (inside : state.IsInside) :=
    movesOn_skip known wellFormed (within.room_of_begins noneOpen begins) rests inside
  obtain ⟨final, ends, found, finalRests, startLe⟩ := WikiLink.exists_loopEnds_findClose skips
    (asked.limit - asked.position) rests
    (by change asked.limit ≤ asked.position + 2 + (asked.limit - asked.position); omega)
  refine ⟨final, ends, Prod.ext ?_ ?_, ?_⟩
  · have back := WikiLink.read_state_eq (skipsForward_of_known known inner) asked
    unfold WikiLink.read at back ⊢
    change (WikiLink.findClose _ asked.limit _ _).2.goto asked.position = asked at back
    change ((WikiLink.findClose _ asked.limit _ _).1.bind
      (WikiLink.linkTo? ((WikiLink.findClose _ asked.limit _ _).2.goto asked.position))) = _
    change WikiLink.findClose _ asked.limit _ _ = (if _ < asked.limit then _ else _, _) at found
    rw [back, found]
    split <;> rfl
  · exact WikiLink.read_state_eq (skipsForward_of_known known inner) asked
  · intro _
    exact WikiLink.cutsInside_of_cut ⟨startLe, rests.boundary, finalRests.boundary⟩

end Tokenizer

/-- A run is read by the tokenizer that may be called inside itself once for each of its bytes,
and once more. -/
theorem tokenizeRun_eq (source : String) (pages : PageSet) (units : List SourceUnit)
    (rules : List InlineRule) :
    tokenizeRun source pages rules units =
      ((withRules rules (runStop units - runStart units + 1)).tokenize
        (InlineState.ofRun source pages units)).tokens.reverse := by
  rcases eq_or_ne units [] with rfl | nonempty
  · rfl
  · have head := List.head?_eq_some_head nonempty
    have final := List.getLast?_eq_some_getLast nonempty
    simp only [tokenizeRun, InlineState.ofRun, runStart, runStop, head, final, Option.map_some,
      Option.getD_some]

/-- While a run is read, the cursor stands between two characters, not behind the limit or the
end of the run.  In front of the limit, where a character is read, a step leads on, whether or
not it writes, and so does skipping.  The loop comes to its end, also in a label, and leaves the
cursor at the limit.  The search for closing brackets comes to its end, the link is read up to
where it stands then, and all that is cut out of the source for the link lies in its content,
between two characters. -/
theorem tokenizeRun_moves_on (source : String) (pages : PageSet) (units : List SourceUnit)
    (wellFormed : WellFormed source units) (rules : List InlineRule)
    (known : rules = [] ∨ rules = [WikiLink.rule]) :
    let start := InlineState.ofRun source pages units
    let depth := runStop units - runStart units + 1
    tokenizeRun source pages rules units =
        ((withRules rules depth).tokenize start).tokens.reverse ∧
    (∀ inner state, Tokenizer.Reaches rules depth start inner state →
      state.source = source ∧ Text.isBoundary source state.position = true ∧
      state.position ≤ state.limit ∧ state.limit ≤ runStop units ∧
      runStop units ≤ source.utf8ByteSize ∧
      (state.position < state.limit →
        (∃ char, Text.charAt? source state.position = some char) ∧
        (∀ emit, state.MovesOn (state.step emit)) ∧
        state.MovesOn ((withRules rules inner).skip state))) ∧
    (∀ inner state, Visits rules depth start inner state →
      ∃ final, LoopEnds IsInside (afterRound rules (withRules rules (inner - 1))) state final ∧
        final.position = final.limit ∧
        (withRules rules inner).tokenize state = final.flush) ∧
    (∀ inner asked, Asks rules depth start inner WikiLink.rule asked → asked.linkLevel = 0 →
      WikiLink.mayBegin asked = true →
      ∃ final, LoopEnds (WikiLink.GoesOn asked.limit) (withRules rules inner).skip
          (asked.goto (asked.position + 2)) final ∧
        WikiLink.read (withRules rules inner) asked =
          (if final.position + 1 < asked.limit then WikiLink.linkTo? asked final.position
            else none, asked) ∧
        (final.position + 1 < asked.limit →
          WikiLink.CutsInside source ⟨asked.position, final.position⟩)) := by
  intro start depth
  have first : Tokenizer.Within source units depth start :=
    Tokenizer.within_start pages wellFormed
  refine ⟨tokenizeRun_eq source pages units rules, ?reached, ?loop, ?search⟩
  case reached =>
    intro inner state reached
    obtain ⟨rests, limitLe, room⟩ := reached.rests known wellFormed first
    refine ⟨rests.source_eq, rests.boundary, rests.inOrder, limitLe,
      Text.le_utf8ByteSize_of_isBoundary first.placed.atLimit.boundary, ?_⟩
    intro inside
    obtain ⟨char, charEq, _⟩ := rests.exists_charAt? inside
    exact ⟨⟨char, rests.source_eq ▸ charEq⟩, rests.movesOn_step wellFormed inside,
      Tokenizer.movesOn_skip known wellFormed room rests inside⟩
  case loop =>
    intro inner state visited
    exact visited.exists_loopEnds known wellFormed first
  case search =>
    intro inner asked asks noneOpen begins
    exact asks.exists_loopEnds known wellFormed first noneOpen begins

/-- In `[[x|*y*]]` the search comes from the opening brackets to the closing ones, over the
emphasis in the label. -/
theorem tokenizeRun_moves_on_emphasizedLabel :
    let start := InlineState.ofRun "[[x|*y*]]" ⟨[]⟩ emphasizedLabel
    Asks [WikiLink.rule] 10 start 9 WikiLink.rule start ∧
    (∃ final, LoopEnds IsInside (afterRound [WikiLink.rule] (withRules [WikiLink.rule] 9))
      start final ∧ final.position = final.limit) ∧
    ∃ final, LoopEnds (WikiLink.GoesOn 9) (withRules [WikiLink.rule] 9).skip
        (start.goto 2) final ∧ final.position = 7 ∧
      WikiLink.CutsInside "[[x|*y*]]" ⟨0, 7⟩ := by
  intro start
  have asks : Asks [WikiLink.rule] 10 start 9 WikiLink.rule start :=
    WikiLink.asks_rule [] 9 (by decide)
  obtain ⟨_, _, loop, search⟩ := tokenizeRun_moves_on "[[x|*y*]]" ⟨[]⟩ emphasizedLabel
    wellFormed_emphasizedLabel [WikiLink.rule] (.inr rfl)
  obtain ⟨loopFinal, loopEnds, atLimit, _⟩ := loop 10 start .start
  obtain ⟨final, ends, read, cuts⟩ := search 9 start asks rfl (by decide +kernel)
  have stops : (WikiLink.read (withRules [WikiLink.rule] 9) start).1.map (fun link => link.2.2) =
      some 9 := by decide +kernel
  rw [read] at stops
  obtain ⟨⟨target, label, stop⟩, found, rfl⟩ := Option.map_eq_some_iff.mp stops
  have room : final.position + 1 < start.limit := by
    by_contra noRoom
    rw [if_neg noRoom] at found
    cases found
  rw [if_pos room] at found
  have closeEq : final.position = 7 := by
    have stopEq := (WikiLink.of_linkTo? found).2.2.2
    simpa using stopEq.symm
  exact ⟨asks, ⟨loopFinal, loopEnds, atLimit⟩, final, ends, closeEq, closeEq ▸ cuts room⟩

end WikiPress
