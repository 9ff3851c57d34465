import WikiPress.Proofs.Inline.EnclosingLinks
import WikiPress.Proofs.Inline.RuleContract

/-!
# The level of links

The level of a cursor is raised behind the opening token of a link among the units, lowered
behind the closing one, and raised while the label of a wiki link is read.  It is exact as long
as every match of another rule begins and ends inside the same links of the run: then it is
above zero behind each label, and what it was in front of a wiki link it is behind it.

A rule that claims one end of a link, and not the other, makes the level wrong.
-/

namespace WikiPress

open SourceUnit (WellFormed Stretch linksSince enclosingLinks)
open InlineState (Continues CountsFrom)

/-! ## What is visited -/

namespace Tokenizer

/-- The states that the loop comes to while it reads a run from a state, each with the depth at
which it is: the first one, that behind a round, and that at the start of a label. -/
inductive Visits (rules : List InlineRule) (depth : Nat) (start : InlineState) :
    Nat → InlineState → Prop where
  | start : Visits rules depth start depth start
  | round {inner : Nat} {state : InlineState} (before : Visits rules depth start (inner + 1) state)
      (inside : state.position < state.limit) :
      Visits rules depth start (inner + 1) (afterRound rules (withRules rules inner) state)
  | label {inner : Nat} {state asked back : InlineState} {target : WikiLink.Target} {label : Span}
      {stop : Nat} (before : Visits rules depth start (inner + 1) state)
      (inside : state.position < state.limit)
      (asks : InlineRule.Asked (withRules rules inner) rules state WikiLink.rule asked)
      (noneOpen : asked.linkLevel = 0) (begins : WikiLink.mayBegin asked = true)
      (found : WikiLink.read (withRules rules inner) asked =
        (some (target, some label, stop), back)) :
      Visits rules depth start inner (WikiLink.insideLabel back target label)

/-- While a run is read from a state, a rule is asked at a state. -/
def Asks (rules : List InlineRule) (depth : Nat) (start : InlineState) (inner : Nat)
    (rule : InlineRule) (asked : InlineState) : Prop :=
  ∃ state, Visits rules depth start (inner + 1) state ∧ state.position < state.limit ∧
    InlineRule.Asked (withRules rules inner) rules state rule asked

/-- While a run is read from a state, every match of a rule beside that for wiki links begins
and ends inside the same links of the run. -/
def KeepsLinks (rules : List InlineRule) (depth : Nat) (start : InlineState) : Prop :=
  ∀ inner rule asked, Asks rules depth start inner rule asked →
    (rule.parse (withRules rules inner) false asked).isMatch = true →
      rule = WikiLink.rule ∨
        enclosingLinks start.units
            (rule.parse (withRules rules inner) false asked).state.position =
          enclosingLinks start.units asked.position

end Tokenizer

open Tokenizer (withRules)

/-! ## Rounds -/

namespace InlineState

variable {source : String} {units : List SourceUnit} {origin limit base : Nat}
  {state after : InlineState}

/-- The cursor moves to the same place whether or not something is written. -/
theorem step_position (state : InlineState) (emit : Bool) :
    (state.step emit).position = (state.step false).position := by
  unfold step passToken
  cases emit with
  | false => rfl
  | true =>
      split
      · rfl
      · split
        · rfl
        · split
          · split <;> rfl
          all_goals rfl

theorem position_lt_step (inside : state.position < state.limit) (emit : Bool) :
    state.position < (state.step emit).position := by
  obtain ⟨next, stepEq, later⟩ := exists_goto_step inside
  rw [step_position, stepEq]
  exact later

/-- At the start of a stretch, the level counts the links around it. -/
theorem countsFrom_self (wellFormed : WellFormed source units) (sourceEq : state.source = source)
    (unitsEq : state.units = units) (stretch : Stretch units state.position state.limit) :
    CountsFrom source units state.position state.limit state.linkLevel state := by
  refine ⟨sourceEq, unitsEq, rfl, Nat.le_refl _, ?_⟩
  rw [Nat.min_eq_left stretch.inOrder, SourceUnit.linksSince_self wellFormed, Nat.add_zero]

theorem CountsFrom.continues (counts : CountsFrom source units origin limit base state)
    (continues : Continues state after) (positionEq : after.position = state.position) :
    CountsFrom source units origin limit base after :=
  counts.move continues.toSameRun continues.linkLevel_eq (Nat.le_of_eq positionEq.symm)
    (by rw [positionEq])

end InlineState

open InlineState

namespace WikiLink

variable {source : String} {units : List SourceUnit} {inner : Tokenizer}
  {origin limit base : Nat} {asked back : InlineState} {target : Target} {label : Option Span}
  {stop : Nat}

@[simp]
theorem insideLabel_source (state : InlineState) (target : Target) (label : Span) :
    (insideLabel state target label).source = state.source :=
  (sameRun_push state (openingToken target state.pages)).source_eq

@[simp]
theorem insideLabel_units (state : InlineState) (target : Target) (label : Span) :
    (insideLabel state target label).units = state.units :=
  push_units state (openingToken target state.pages)

@[simp]
theorem insideLabel_linkLevel (state : InlineState) (target : Target) (label : Span) :
    (insideLabel state target label).linkLevel = state.linkLevel + 1 :=
  congrArg (· + 1) (push_linkLevel state (openingToken target state.pages))

/-- As many links are open behind a wiki link as in front of it; the link and its label are
stretches. -/
theorem stretch_of_read (wellFormed : WellFormed source units)
    (stretch : Stretch units origin limit) (unitsEq : asked.units = units)
    (originLe : origin ≤ asked.position) (limitLe : asked.limit ≤ limit)
    (ahead : inner.SkipsAhead) (begins : mayBegin asked = true)
    (found : read inner asked = (some (target, label, stop), back)) :
    (Stretch units asked.position stop ∧
      linksSince units origin stop = linksSince units origin asked.position) ∧
      ∀ range ∈ label, Stretch units range.start range.stop := by
  have ordered := wellFormed.ordered
  obtain ⟨continues, positionEq⟩ := continues_read ahead found
  have encloses := encloses_of_read ahead begins found
  have backUnits : back.units = units := continues.units_eq.trans unitsEq
  have stopLe : stop ≤ limit := Nat.le_trans (continues.limit_eq ▸ encloses.stop_le) limitLe
  have backOrigin : origin ≤ back.position := positionEq ▸ originLe
  have part {start stop : Nat} (originLe : origin ≤ start) (inOrder : start ≤ stop)
      (leLimit : stop ≤ limit) (balanced : back.isBalanced start stop = true) :=
    have borders := SourceUnit.of_isBalanced ordered wellFormed.fits backUnits inOrder balanced
    stretch.part ordered originLe inOrder leLimit borders.1 borders.2.1 borders.2.2
  refine ⟨?_, ?_⟩
  · rw [← positionEq]
    exact part backOrigin (Nat.le_of_lt encloses.later) stopLe encloses.balanced
  · intro range member
    obtain ⟨startLe, replaceable, leStop⟩ := encloses.label range member
    exact (part (Nat.le_trans backOrigin startLe) replaceable.cut.inOrder
      (Nat.le_trans leStop stopLe) replaceable.balanced).1

/-- Where a label is left on the level on which it begins, a wiki link leaves the level as it
was. -/
theorem linkLevel_write (target : Target) (stop : Nat)
    (keeps : ∀ range ∈ label,
      (inner.tokenize (insideLabel back target range)).linkLevel = back.linkLevel + 1) :
    (write inner back target label stop).linkLevel = back.linkLevel := by
  let opened := back.push (openingToken target back.pages)
  cases label with
  | none =>
      exact (push_linkLevel (opened.pushText target.destination) closingToken).trans
        (push_linkLevel back (openingToken target back.pages))
  | some range =>
      refine (push_linkLevel (writeLabel inner opened range) closingToken).trans ?_
      change (inner.tokenize (insideLabel back target range)).linkLevel - 1 = back.linkLevel
      rw [keeps range rfl, Nat.add_sub_cancel]

end WikiLink

namespace Tokenizer

variable {rules : List InlineRule} {depth : Nat} {start : InlineState}

/-- A stretch that is read from a visited state is left on the level on which it begins. -/
def LeavesLevel (rules : List InlineRule) (depth : Nat) (start : InlineState)
    (inner : Nat) : Prop :=
  ∀ state, Visits rules depth start inner state →
    Stretch start.units state.position state.limit →
      ((withRules rules inner).tokenize state).linkLevel = state.linkLevel

/-- All visited states walk over the same units of the same source. -/
theorem Visits.sameUnits (adds : ∀ depth, ∀ rule ∈ rules, rule = WikiLink.rule ∨
      rule.AddsTokens (withRules rules depth)) {inner : Nat} {state : InlineState}
    (visited : Visits rules depth start inner state) :
    state.source = start.source ∧ state.units = start.units := by
  induction visited with
  | start => exact ⟨rfl, rfl⟩
  | @round inner state before inside ih =>
      have extends_ := extends_afterRound (skipsAhead_withRules adds inner) (adds inner)
        (extends_withRules adds inner) inside
      exact ⟨extends_.source_eq.trans ih.1, extends_.units_eq.trans ih.2⟩
  | @label inner state asked back target label stop before inside asksAt noneOpen begins found ih =>
      have ahead := skipsAhead_withRules adds inner
      have reached := (asksAt.continues (declinesInPlace_of_addsTokens ahead (adds inner)) inside).1
      have continues := reached.trans (WikiLink.continues_read ahead found).1
      exact ⟨(WikiLink.insideLabel_source back target label).trans
          (continues.source_eq.trans ih.1),
        (WikiLink.insideLabel_units back target label).trans (continues.units_eq.trans ih.2)⟩

section Rounds

variable (wellFormed : WellFormed start.source start.units)
  (adds : ∀ depth, ∀ rule ∈ rules, rule = WikiLink.rule ∨
    rule.AddsTokens (withRules rules depth))
  (keeps : KeepsLinks rules depth start)
include wellFormed adds

/-- The wiki link that is read at a visited state leaves the level as it was, if the level is
exact there.  In its label it is above zero in the end. -/
theorem linkLevel_of_read {inner origin limit base : Nat} {asked back : InlineState}
    {target : WikiLink.Target} {label : Option Span} {stop : Nat}
    (leaves : LeavesLevel rules depth start inner)
    (stretch : Stretch start.units origin limit)
    (counts : CountsFrom start.source start.units origin limit base asked)
    (asks : Asks rules depth start inner WikiLink.rule asked)
    (noneOpen : asked.linkLevel = 0) (begins : WikiLink.mayBegin asked = true)
    (found : WikiLink.read (withRules rules inner) asked = (some (target, label, stop), back)) :
    ∀ range ∈ label,
      ((withRules rules inner).tokenize (WikiLink.insideLabel back target range)).linkLevel =
        back.linkLevel + 1 := by
  obtain ⟨_, stretches⟩ := WikiLink.stretch_of_read wellFormed stretch counts.units_eq
    counts.origin_le (Nat.le_of_eq counts.limit_eq) (skipsAhead_withRules adds inner) begins found
  obtain ⟨state, visited, inside, asksAt⟩ := asks
  intro range member
  obtain rfl : label = some range := member
  have level := leaves _ (.label visited inside asksAt noneOpen begins found)
    (stretches range rfl)
  exact level.trans (WikiLink.insideLabel_linkLevel back target range)

omit wellFormed in
/-- Where a rule is asked, the count is that of the state at which the rules are asked. -/
theorem countsFrom_asked {inner origin limit base : Nat} {state asked : InlineState}
    (counts : CountsFrom start.source start.units origin limit base state)
    (inside : state.position < state.limit) {rule : InlineRule}
    (asksAt : InlineRule.Asked (withRules rules inner) rules state rule asked) :
    CountsFrom start.source start.units origin limit base asked ∧
      asked.position = state.position := by
  have ahead := skipsAhead_withRules adds inner
  obtain ⟨continues, positionEq⟩ :=
    asksAt.continues (declinesInPlace_of_addsTokens ahead (adds inner)) inside
  exact ⟨counts.continues continues positionEq, positionEq⟩

/-- A wiki link that is written at a visited state is counted on both sides. -/
theorem countsFrom_wikiLink {inner origin limit base : Nat}
    (leaves : LeavesLevel rules depth start inner)
    (stretch : Stretch start.units origin limit) {asked : InlineState}
    (counts : CountsFrom start.source start.units origin limit base asked)
    (asks : Asks rules depth start inner WikiLink.rule asked)
    (claims : (WikiLink.rule.parse (withRules rules inner) false asked).isMatch = true) :
    CountsFrom start.source start.units origin limit base
        (WikiLink.rule.parse (withRules rules inner) false asked).state ∧
      asked.position < (WikiLink.rule.parse (withRules rules inner) false asked).state.position ∧
      (WikiLink.rule.parse (withRules rules inner) false asked).state.linkLevel =
        asked.linkLevel := by
  have ahead := skipsAhead_withRules adds inner
  rcases WikiLink.parse_cases (withRules rules inner) false asked with
    refused | ⟨_, noneOpen, begins, ⟨back, found, parsed⟩ |
      ⟨target, label, stop, back, found, parsed⟩⟩
  · rw [refused] at claims
    cases claims
  · rw [parsed] at claims
    cases claims
  · obtain ⟨continues, positionEq⟩ := WikiLink.continues_read ahead found
    have encloses := WikiLink.encloses_of_read ahead begins found
    obtain ⟨⟨_, linksEq⟩, _⟩ := WikiLink.stretch_of_read wellFormed stretch counts.units_eq
      counts.origin_le (Nat.le_of_eq counts.limit_eq) ahead begins found
    have level := WikiLink.linkLevel_write target stop
      (linkLevel_of_read wellFormed adds leaves stretch counts asks noneOpen begins found)
    have written :=
      WikiLink.extends_write (extends_withRules adds inner) back target label stop
    have later : asked.position < stop := positionEq ▸ encloses.later
    have stopLe : stop ≤ limit := counts.limit_eq ▸ continues.limit_eq ▸ encloses.stop_le
    have levelEq := level.trans continues.linkLevel_eq
    rw [parsed]
    refine ⟨counts.move (continues.toSameRun.trans written.toSameRun) levelEq
      (Nat.le_of_lt later) ?_, later, levelEq⟩
    change linksSince start.units origin (min stop limit) = _
    rw [Nat.min_eq_left stopLe, Nat.min_eq_left (Nat.le_trans (Nat.le_of_lt later) stopLe), linksEq]

variable (keeps : KeepsLinks rules depth start)
include keeps

/-- A rule that claims the source at a visited state leaves the count exact. -/
theorem countsFrom_parse {inner origin limit base : Nat}
    (leaves : LeavesLevel rules depth start inner)
    (stretch : Stretch start.units origin limit) {rule : InlineRule} {asked : InlineState}
    (counts : CountsFrom start.source start.units origin limit base asked)
    (asks : Asks rules depth start inner rule asked) (inside : asked.position < asked.limit)
    (claims : (rule.parse (withRules rules inner) false asked).isMatch = true) :
    CountsFrom start.source start.units origin limit base
        (rule.parse (withRules rules inner) false asked).state ∧
      asked.position < (rule.parse (withRules rules inner) false asked).state.position := by
  by_cases isWikiLink : rule = WikiLink.rule
  · subst isWikiLink
    obtain ⟨counted, later, _⟩ :=
      countsFrom_wikiLink wellFormed adds leaves stretch counts asks claims
    exact ⟨counted, later⟩
  · obtain ⟨_, _, _, asksAt⟩ := id asks
    have addsTokens := (adds inner rule asksAt.mem).resolve_left isWikiLink
    have advances := addsTokens.advances false asked inside claims
    have later := advances.position_lt
    have leLimit := counts.limit_eq ▸ advances.position_le_limit
    have enclosing := (keeps inner rule asked asks claims).resolve_left isWikiLink
    refine ⟨counts.move advances.toSameRun advances.linkLevel_eq (Nat.le_of_lt later) ?_, later⟩
    rw [Nat.min_eq_left leLimit, Nat.min_eq_left (Nat.le_trans (Nat.le_of_lt later) leLimit)]
    rw [stretch.enclosingLinks_eq wellFormed
        (Nat.le_trans counts.origin_le (Nat.le_of_lt later)) leLimit,
      stretch.enclosingLinks_eq wellFormed counts.origin_le
        (Nat.le_trans (Nat.le_of_lt later) leLimit)] at enclosing
    exact Nat.add_right_cancel enclosing

/-- A round leaves the count exact and leads on. -/
theorem countsFrom_afterRound {inner origin limit base : Nat}
    (leaves : LeavesLevel rules depth start inner)
    (stretch : Stretch start.units origin limit) {state : InlineState}
    (counts : CountsFrom start.source start.units origin limit base state)
    (visited : Visits rules depth start (inner + 1) state)
    (inside : state.position < state.limit) :
    CountsFrom start.source start.units origin limit base
        (afterRound rules (withRules rules inner) state) ∧
      state.position < (afterRound rules (withRules rules inner) state).position := by
  have ahead := skipsAhead_withRules adds inner
  have decline := declinesInPlace_of_addsTokens ahead (adds inner)
  unfold afterRound
  rcases InlineRule.tryAll_cases decline inside with
    ⟨reached, tried, continues, positionEq⟩ | ⟨rule, asked, asksAt, claims, tried⟩
  · have stillInside : reached.position < reached.limit := by
      rw [positionEq, continues.limit_eq]
      exact inside
    have reachedCounts := counts.continues continues positionEq
    simp only [tried, Bool.false_eq_true, if_false]
    refine ⟨reachedCounts.step wellFormed stretch
      (reachedCounts.limit_eq ▸ stillInside), ?_⟩
    rw [← positionEq]
    exact position_lt_step stillInside true
  · obtain ⟨askedCounts, positionEq⟩ := countsFrom_asked adds counts inside asksAt
    have stillInside : asked.position < asked.limit := by
      rw [positionEq, askedCounts.limit_eq, ← counts.limit_eq]
      exact inside
    obtain ⟨counted, later⟩ := countsFrom_parse wellFormed adds keeps leaves stretch askedCounts
      ⟨state, visited, inside, asksAt⟩ stillInside claims
    simp only [tried, claims, if_true]
    exact ⟨counted, positionEq ▸ later⟩

/-- With a round for every byte that is left, the level in the end is that around the
stretch. -/
theorem linkLevel_tokenizeWith {inner origin limit base : Nat}
    (leaves : LeavesLevel rules depth start inner)
    (stretch : Stretch start.units origin limit) (rounds : Nat) {state : InlineState}
    (counts : CountsFrom start.source start.units origin limit base state)
    (visited : Visits rules depth start (inner + 1) state)
    (enough : limit ≤ state.position + rounds) :
    (tokenizeWith rules (withRules rules inner) rounds state).linkLevel = base := by
  have ended {state : InlineState}
      (counts : CountsFrom start.source start.units origin limit base state)
      (atEnd : limit ≤ state.position) : state.flush.linkLevel = base :=
    (flush_linkLevel state).trans (counts.level_of_limit_le stretch atEnd)
  induction rounds generalizing state with
  | zero => exact ended counts enough
  | succ rounds ih =>
      unfold tokenizeWith
      by_cases inside : state.position < state.limit
      · rw [if_pos inside]
        obtain ⟨counted, later⟩ :=
          countsFrom_afterRound wellFormed adds keeps leaves stretch counts visited inside
        have rest := ih counted (visited.round inside) (by omega)
        exact rest
      · rw [if_neg inside]
        exact ended counts (counts.limit_eq ▸ Nat.le_of_not_lt inside)

/-- However deep it is called, the tokenizer leaves a stretch on the level on which it
begins. -/
theorem leavesLevel (inner : Nat) : LeavesLevel rules depth start inner := by
  induction inner with
  | zero => exact fun state _ _ => flush_linkLevel state
  | succ inner ih =>
      intro state visited stretch
      obtain ⟨sourceEq, unitsEq⟩ := visited.sameUnits adds
      exact linkLevel_tokenizeWith wellFormed adds keeps ih stretch _
        (countsFrom_self wellFormed sourceEq unitsEq stretch) visited (by omega)

/-- At every state that is visited, the level is exact. -/
theorem exists_countsFrom (whole : Stretch start.units start.position start.limit) {inner : Nat}
    {state : InlineState} (visited : Visits rules depth start inner state) :
    ∃ origin limit base, Stretch start.units origin limit ∧
      CountsFrom start.source start.units origin limit base state := by
  induction visited with
  | start => exact ⟨_, _, _, whole, countsFrom_self wellFormed rfl rfl whole⟩
  | @round inner state before inside ih =>
      obtain ⟨origin, limit, base, stretch, counts⟩ := ih
      have leaves := leavesLevel wellFormed adds keeps inner
      exact ⟨origin, limit, base, stretch,
        (countsFrom_afterRound wellFormed adds keeps leaves stretch counts before inside).1⟩
  | @label inner state asked back target label stop before inside asksAt noneOpen begins found ih =>
      obtain ⟨origin, limit, base, stretch, counts⟩ := ih
      obtain ⟨askedCounts, _⟩ := countsFrom_asked adds counts inside asksAt
      obtain ⟨_, stretches⟩ := WikiLink.stretch_of_read wellFormed stretch askedCounts.units_eq
        askedCounts.origin_le (Nat.le_of_eq askedCounts.limit_eq)
        (skipsAhead_withRules adds inner) begins found
      obtain ⟨sourceEq, unitsEq⟩ :=
        (Visits.label before inside asksAt noneOpen begins found).sameUnits adds
      exact ⟨_, _, _, stretches label rfl,
        countsFrom_self wellFormed sourceEq unitsEq (stretches label rfl)⟩

end Rounds

/-- With no rule beside that for wiki links, every round leaves the count exact. -/
theorem countsFrom_afterRound_wikiLink {source : String} {units : List SourceUnit}
    (wellFormed : WellFormed source units) {origin limit base : Nat}
    (stretch : Stretch units origin limit) {state : InlineState}
    (counts : CountsFrom source units origin limit base state)
    (inside : state.position < state.limit) (depth : Nat) :
    CountsFrom source units origin limit base
      (afterRound [WikiLink.rule] (withRules [WikiLink.rule] depth) state) := by
  obtain rfl := counts.source_eq
  obtain rfl := counts.units_eq
  have adds (depth : Nat) : ∀ rule ∈ [WikiLink.rule], rule = WikiLink.rule ∨
      rule.AddsTokens (withRules [WikiLink.rule] depth) :=
    fun _ member => .inl (List.mem_singleton.mp member)
  have keeps : KeepsLinks [WikiLink.rule] (depth + 1) state := by
    rintro inner rule asked ⟨_, _, _, asksAt⟩ _
    exact .inl (List.mem_singleton.mp asksAt.mem)
  exact (countsFrom_afterRound wellFormed adds keeps (leavesLevel wellFormed adds keeps depth)
    stretch counts .start inside).1

end Tokenizer

/-! ## Wiki links -/

namespace SourceUnit

/-- The units of a run lie between the start of the first one and the end of the last one. -/
theorem WellFormed.stretch_run {source : String} {units : List SourceUnit}
    (wellFormed : WellFormed source units) {first last : SourceUnit}
    (head : units.head? = some first) (final : units.getLast? = some last) :
    Stretch units first.start last.stop := by
  have firstMember := List.mem_of_head? head
  have nonempty := wellFormed.nonempty first firstMember
  have leLast := wellFormed.le_last final firstMember
  exact wellFormed.stretch (by omega) fun _ member =>
    ⟨wellFormed.first_le head member, wellFormed.le_last final member⟩

end SourceUnit

namespace WikiLink

/-- Where the other rules add tokens, and their matches begin and end inside the same links of
the run, the level behind every wiki link that is written is that in front of it, and what is
taken off it behind a label has been there. -/
theorem linkLevel_exact (source : String) (pages : PageSet) (units : List SourceUnit)
    (wellFormed : WellFormed source units) (first last : SourceUnit)
    (head : units.head? = some first) (final : units.getLast? = some last)
    (rules : List InlineRule)
    (adds : ∀ depth, ∀ other ∈ rules, other = rule ∨ other.AddsTokens (withRules rules depth))
    (depth : Nat)
    (keeps : Tokenizer.KeepsLinks rules depth
      { source, position := first.start, limit := last.stop, pages, units })
    (inner : Nat) (asked : InlineState)
    (asks : Tokenizer.Asks rules depth
      { source, position := first.start, limit := last.stop, pages, units } inner rule asked)
    (claims : (rule.parse (withRules rules inner) false asked).isMatch = true) :
    (rule.parse (withRules rules inner) false asked).state.linkLevel = asked.linkLevel ∧
    ∀ target label stop back,
      read (withRules rules inner) asked = (some (target, some label, stop), back) →
        0 < ((withRules rules inner).tokenize (insideLabel back target label)).linkLevel := by
  have whole := wellFormed.stretch_run head final
  have leaves := Tokenizer.leavesLevel wellFormed adds keeps inner
  obtain ⟨state, visited, inside, asksAt⟩ := id asks
  obtain ⟨origin, limit, base, stretch, counts⟩ :=
    Tokenizer.exists_countsFrom wellFormed adds keeps whole visited
  obtain ⟨askedCounts, _⟩ := Tokenizer.countsFrom_asked adds counts inside asksAt
  refine ⟨(Tokenizer.countsFrom_wikiLink wellFormed adds leaves stretch askedCounts asks
    claims).2.2, ?_⟩
  intro target label stop back found
  rcases parse_cases (withRules rules inner) false asked with
    refused | ⟨_, noneOpen, begins, _⟩
  · rw [refused] at claims
    cases claims
  · have level := Tokenizer.linkLevel_of_read wellFormed adds leaves stretch askedCounts
      asks noneOpen begins found label rfl
    omega

/-- The units of `[[a|[x](y)]] [[b]]`: a wiki link with a link in its label, and another one. -/
def linkInLabel : List SourceUnit :=
  [⟨0, 4, .text "[[a|" true⟩, ⟨4, 5, .opening (SourceUnit.openingToken (.link "y" ""))⟩,
    ⟨5, 6, .text "x" true⟩, ⟨6, 10, .closing (SourceUnit.closingToken .link)⟩,
    ⟨10, 18, .text "]] [[b]]" true⟩]

theorem wellFormed_linkInLabel : WellFormed "[[a|[x](y)]] [[b]]" linkInLabel := by
  decide +kernel

/-- The state in front of the first wiki link. -/
def beforeLinkInLabel : InlineState :=
  { source := "[[a|[x](y)]] [[b]]", position := 0, limit := 18, pages := ⟨["a", "b"]⟩,
    units := linkInLabel }

theorem adds_codeWord {word : String} (nonempty : 0 < word.utf8ByteSize) :
    ∀ depth, ∀ other ∈ [rule, InlineRule.codeWord word], other = rule ∨
      other.AddsTokens (withRules [rule, InlineRule.codeWord word] depth) := by
  intro depth other member
  rcases List.mem_pair.mp member with rfl | rfl
  · exact .inl rfl
  · exact .inr (InlineRule.keepsContract_codeWord _ nonempty).toAddsTokens

/-- The first rule is asked at the start of a run. -/
theorem asks_rule (rules : List InlineRule) (depth : Nat) {start : InlineState}
    (inside : start.position < start.limit) :
    Tokenizer.Asks (rule :: rules) (depth + 1) start depth rule start :=
  ⟨start, .start, inside, .first rule rules start⟩

/-- A word keeps to the links of a run if each place where it is written does. -/
theorem keepsLinks_codeWord {word : String} (nonempty : 0 < word.utf8ByteSize)
    {start : InlineState} (depth : Nat)
    (same : ∀ position,
      Text.slice? start.source position (position + word.utf8ByteSize) = some word →
        enclosingLinks start.units (position + word.utf8ByteSize) =
          enclosingLinks start.units position) :
    Tokenizer.KeepsLinks [rule, InlineRule.codeWord word] depth start := by
  have adds := adds_codeWord nonempty
  rintro inner other asked ⟨state, visited, inside, asksAt⟩ claims
  rcases List.mem_pair.mp asksAt.mem with rfl | rfl
  · exact .inl rfl
  · right
    have ahead := Tokenizer.skipsAhead_withRules adds inner
    have reached :=
      (asksAt.continues (Tokenizer.declinesInPlace_of_addsTokens ahead (adds inner)) inside).1
    rcases InlineRule.codeWord_cases (withRules [rule, InlineRule.codeWord word] inner) word false
      asked with refused | ⟨_, written, parsed⟩
    · rw [refused] at claims
      cases claims
    · rw [reached.source_eq, (visited.sameUnits adds).1] at written
      rw [parsed]
      exact same asked.position written

/-- The word in the label stands inside the link there. -/
theorem keepsLinks_linkInLabel (depth : Nat) :
    Tokenizer.KeepsLinks [rule, InlineRule.codeWord "x"] depth beforeLinkInLabel := by
  apply keepsLinks_codeWord (by decide)
  intro position written
  have inText : position < 18 := by
    by_contra beyond
    have noBoundary : Text.isBoundary "[[a|[x](y)]] [[b]]" (position + 1) ≠ true := fun boundary =>
      beyond (Text.le_utf8ByteSize_of_isBoundary boundary)
    change Text.slice? "[[a|[x](y)]] [[b]]" position (position + 1) = some "x" at written
    simp [Text.slice?, noBoundary] at written
  have everywhere : ∀ position < 18,
      Text.slice? "[[a|[x](y)]] [[b]]" position (position + 1) = some "x" →
        enclosingLinks linkInLabel (position + 1) = enclosingLinks linkInLabel position := by
    decide +kernel
  exact everywhere position inText written

theorem linkLevel_exact_linkInLabel :
    Tokenizer.KeepsLinks [rule, InlineRule.codeWord "x"] 19 beforeLinkInLabel ∧
    (rule.parse (withRules [rule, InlineRule.codeWord "x"] 18) false beforeLinkInLabel).isMatch =
      true ∧
    (rule.parse (withRules [rule, InlineRule.codeWord "x"] 18) false
      beforeLinkInLabel).state.linkLevel = beforeLinkInLabel.linkLevel := by
  have claims : (rule.parse (withRules [rule, InlineRule.codeWord "x"] 18) false
      beforeLinkInLabel).isMatch = true := by decide +kernel
  exact ⟨keepsLinks_linkInLabel 19, claims, (linkLevel_exact "[[a|[x](y)]] [[b]]" ⟨["a", "b"]⟩
    linkInLabel wellFormed_linkInLabel _ _ rfl rfl _ (adds_codeWord (by decide)) 19
    (keepsLinks_linkInLabel 19) 18 beforeLinkInLabel (asks_rule _ 18 (by decide)) claims).1⟩

/-- A rule that claims the end of the link, and not its start, leaves the level too high behind
the wiki link.  One that claims the start, and not the end, leaves none to be taken off behind
the label. -/
theorem linkLevel_inexact_linkInLabel :
    (∀ word ∈ ["](y)", "["], ∀ depth, ∀ other ∈ [rule, InlineRule.codeWord word], other = rule ∨
      other.KeepsContract (withRules [rule, InlineRule.codeWord word] depth)) ∧
    WellFormed beforeLinkInLabel.source linkInLabel ∧
    (∀ word, Tokenizer.Asks [rule, InlineRule.codeWord word] 19 beforeLinkInLabel 18 rule
      beforeLinkInLabel) ∧
    ((rule.parse (withRules [rule, InlineRule.codeWord "](y)"] 18) false
        beforeLinkInLabel).isMatch = true ∧
      (rule.parse (withRules [rule, InlineRule.codeWord "](y)"] 18) false
        beforeLinkInLabel).state.linkLevel = beforeLinkInLabel.linkLevel + 1) ∧
    ∃ target label stop,
      read (withRules [rule, InlineRule.codeWord "["] 18) beforeLinkInLabel =
        (some (target, some label, stop), beforeLinkInLabel) ∧
      ((withRules [rule, InlineRule.codeWord "["] 18).tokenize
        (insideLabel beforeLinkInLabel target label)).linkLevel = 0 := by
  have contract : ∀ word ∈ ["](y)", "["], ∀ depth, ∀ other ∈ [rule, InlineRule.codeWord word],
      other = rule ∨
        other.KeepsContract (withRules [rule, InlineRule.codeWord word] depth) := by
    intro word isWord depth other member
    have nonempty : 0 < word.utf8ByteSize := by
      rcases List.mem_pair.mp isWord with rfl | rfl <;> decide
    rcases List.mem_pair.mp member with rfl | rfl
    · exact .inl rfl
    · exact .inr (InlineRule.keepsContract_codeWord _ nonempty)
  have forward := Tokenizer.skipsForward_withRules_of_keepsContract (contract "[" (by decide)) 18
  refine ⟨contract, wellFormed_linkInLabel, fun word => asks_rule _ 18 (by decide),
    ⟨by decide +kernel, by decide +kernel⟩, ⟨"a", ""⟩, ⟨4, 10⟩, 12, Prod.ext ?_ ?_, ?_⟩
  · decide +kernel
  · exact read_state_eq forward beforeLinkInLabel
  · decide +kernel

end WikiLink

end WikiPress
