import WikiPress.Proofs.Inline.LinkLevel

/-!
# What rules owe to the tokenizer

A rule that declines has changed nothing.  A rule that claims the source moves the cursor
on, not beyond the limit, and adds tokens; when it is only asked whether it would, it moves
the cursor and writes nothing.

The rule for wiki links keeps this contract if the rules beside it do.  It skips token by
token, which asks the others; it puts the cursor back; and it reads a label with all rules,
itself among them, up to a nearer limit.
-/

namespace WikiPress

open InlineState (Continues)

/-! ## The contract -/

/-- A later state of the same run whose cursor has been moved on inside the run. -/
structure InlineState.Advances (before after : InlineState) : Prop
    extends Continues before after where
  position_lt : before.position < after.position
  position_le_limit : after.position ≤ before.limit

namespace InlineRule

/-- A rule that changes nothing where it declines, and otherwise moves the cursor on and adds
tokens. -/
structure AddsTokens (tokenizer : Tokenizer) (rule : InlineRule) : Prop where
  declines : ∀ probe state, state.position < state.limit →
    (rule.parse tokenizer probe state).isMatch = false →
      (rule.parse tokenizer probe state).state = state
  advances : ∀ probe state, state.position < state.limit →
    (rule.parse tokenizer probe state).isMatch = true →
      state.Advances (rule.parse tokenizer probe state).state

/-- A rule that adds tokens, but none when it is only asked whether it would. -/
structure KeepsContract (tokenizer : Tokenizer) (rule : InlineRule) : Prop
    extends AddsTokens tokenizer rule where
  silent : ∀ state, state.position < state.limit →
    (rule.parse tokenizer true state).isMatch = true →
      ∃ next, (rule.parse tokenizer true state).state = state.goto next

/-- A word that is written as code. -/
def codeToken (word : String) : Token :=
  (Token.ofKind .codeInline "code" .leaf).withContent word

/-- A rule that claims a word and writes it as code. -/
def codeWord (word : String) : InlineRule where
  name := "code word"
  parse _ probe state :=
    let stop := state.position + word.utf8ByteSize
    if stop ≤ state.limit && Text.slice? state.source state.position stop == some word then
      { isMatch := true
        state := (if probe then state else state.push (codeToken word)).goto stop }
    else
      { isMatch := false, state }

end InlineRule

namespace InlineState

/-- A state of the same run, to whose tokens others may have been added. -/
structure Extends (before after : InlineState) : Prop extends SameRun before after where
  tokens_suffix : before.tokens <:+ after.tokens

theorem Extends.refl (state : InlineState) : Extends state state :=
  ⟨.refl state, List.suffix_rfl⟩

theorem Extends.trans {first second third : InlineState} (before : Extends first second)
    (behind : Extends second third) : Extends first third :=
  ⟨before.toSameRun.trans behind.toSameRun, before.tokens_suffix.trans behind.tokens_suffix⟩

theorem Continues.extends {before after : InlineState} (continues : Continues before after) :
    Extends before after :=
  ⟨continues.toSameRun, continues.tokens_suffix⟩

/-- Moving the cursor. -/
theorem extends_goto (state : InlineState) (position : Nat) :
    Extends state (state.goto position) :=
  ⟨⟨rfl, rfl, rfl⟩, List.suffix_rfl⟩

theorem extends_pushText (state : InlineState) (text : String) :
    Extends state (state.pushText text) :=
  ⟨⟨rfl, rfl, rfl⟩, List.suffix_rfl⟩

theorem extends_flush (state : InlineState) : Extends state state.flush := by
  refine ⟨sameRun_flush state, ?_⟩
  unfold flush
  split
  · exact List.suffix_rfl
  · exact List.suffix_cons _ _

theorem extends_push (state : InlineState) (token : Token) : Extends state (state.push token) :=
  (extends_flush state).trans ⟨⟨rfl, rfl, rfl⟩, List.suffix_cons _ _⟩

@[simp]
theorem push_pages (state : InlineState) (token : Token) :
    (state.push token).pages = state.pages := by
  unfold push flush
  split <;> rfl

theorem extends_passToken (state : InlineState) (emit : Bool) (token : Token) (stop : Nat) :
    Extends state (state.passToken emit token stop) := by
  unfold passToken
  split
  · have pushed := extends_push
      { state with linkLevel := linkLevelAfter state.linkLevel token } token
    exact ⟨⟨pushed.source_eq, pushed.units_eq, pushed.limit_eq⟩, pushed.tokens_suffix⟩
  · exact extends_goto state stop

/-- A step takes no token away. -/
theorem extends_step (state : InlineState) (emit : Bool) : Extends state (state.step emit) := by
  have written (text : String) (position : Nat) (writes : Bool) :
      Extends state ((if writes then state.pushText text else state).goto position) := by
    cases writes with
    | false => exact extends_goto state position
    | true => exact (extends_pushText state text).trans (extends_goto _ position)
  unfold step
  split
  · exact extends_goto state _
  · split
    · exact extends_goto state _
    · split
      · split
        · exact written _ _ emit
        · exact extends_goto state _
      · exact written _ _ _
      all_goals exact extends_passToken state emit _ _

end InlineState

/-! ## Asking the rules -/

namespace InlineRule

variable {inner : Tokenizer} {rules : List InlineRule} {state : InlineState}

/-- Where rules are asked in order, one of them is asked at a state: all before it have
declined. -/
inductive Asked (inner : Tokenizer) : List InlineRule → InlineState → InlineRule → InlineState →
    Prop where
  | first (rule : InlineRule) (rules : List InlineRule) (state : InlineState) :
      Asked inner (rule :: rules) state rule state
  | later {rule asked : InlineRule} {rules : List InlineRule} {state reached : InlineState}
      (declines : (rule.parse inner false state).isMatch = false)
      (behind : Asked inner rules (rule.parse inner false state).state asked reached) :
      Asked inner (rule :: rules) state asked reached

theorem Asked.mem {rule : InlineRule} {reached : InlineState}
    (asked : Asked inner rules state rule reached) : rule ∈ rules := by
  induction asked with
  | first => exact List.mem_cons_self
  | later _ _ ih => exact List.mem_cons_of_mem _ ih

/-- A rule that declines at a state leads to a later one, where the cursor has not been
moved. -/
def DeclinesInPlace (inner : Tokenizer) (rule : InlineRule) : Prop :=
  ∀ state : InlineState, state.position < state.limit →
    (rule.parse inner false state).isMatch = false →
      Continues state (rule.parse inner false state).state ∧
        (rule.parse inner false state).state.position = state.position

theorem Asked.continues (decline : ∀ rule ∈ rules, rule.DeclinesInPlace inner)
    (inside : state.position < state.limit) {rule : InlineRule} {reached : InlineState}
    (asked : Asked inner rules state rule reached) :
    Continues state reached ∧ reached.position = state.position := by
  induction asked with
  | first => exact ⟨.refl _, rfl⟩
  | later declines _ ih =>
      obtain ⟨continues, positionEq⟩ := decline _ List.mem_cons_self _ inside declines
      obtain ⟨behind, behindEq⟩ := ih
        (fun rule member => decline rule (List.mem_cons_of_mem _ member))
        (by rw [positionEq, continues.limit_eq]; exact inside)
      exact ⟨continues.trans behind, behindEq.trans positionEq⟩

/-- Either all rules decline, or one that is asked claims the source. -/
theorem tryAll_cases (decline : ∀ rule ∈ rules, rule.DeclinesInPlace inner)
    (inside : state.position < state.limit) :
    (∃ reached, tryAll inner rules state = { isMatch := false, state := reached } ∧
      Continues state reached ∧ reached.position = state.position) ∨
    ∃ rule reached, Asked inner rules state rule reached ∧
      (rule.parse inner false reached).isMatch = true ∧
      tryAll inner rules state = rule.parse inner false reached := by
  induction rules generalizing state with
  | nil => exact .inl ⟨state, rfl, .refl state, rfl⟩
  | cons rule rules ih =>
      cases isMatch : (rule.parse inner false state).isMatch with
      | true =>
          refine .inr ⟨rule, state, .first rule rules state, isMatch, ?_⟩
          simp only [tryAll, isMatch, if_true]
      | false =>
          obtain ⟨continues, positionEq⟩ := decline rule List.mem_cons_self state inside isMatch
          have tried : tryAll inner (rule :: rules) state =
              tryAll inner rules (rule.parse inner false state).state := by
            simp [tryAll, isMatch]
          rw [tried]
          rcases ih (fun rule member => decline rule (List.mem_cons_of_mem _ member))
              (by rw [positionEq, continues.limit_eq]; exact inside) with
            ⟨reached, triedEq, behind, behindEq⟩ | ⟨claiming, reached, asked, claims, triedEq⟩
          · exact .inl ⟨reached, triedEq, continues.trans behind, behindEq.trans positionEq⟩
          · exact .inr ⟨claiming, reached, .later isMatch asked, claims, triedEq⟩

/-- Rules that are asked whether they would claim the source are asked at one state, and at
most one of them is not put back. -/
theorem probeAll_cases (adds : ∀ rule ∈ rules, rule = WikiLink.rule ∨ rule.AddsTokens inner)
    (inside : state.position < state.limit) :
    probeAll inner state.position rules state = { isMatch := false, state } ∨
    ∃ rule ∈ rules, (rule.parse inner true state).isMatch = true ∧
      probeAll inner state.position rules state = rule.parse inner true state := by
  induction rules with
  | nil => exact .inl rfl
  | cons rule rules ih =>
      obtain ⟨first, adds⟩ := List.forall_mem_cons.mp adds
      cases isMatch : (rule.parse inner true state).isMatch with
      | true =>
          have advances : state.Advances (rule.parse inner true state).state := by
            rcases first with rfl | adds
            · cases isMatch
            · exact adds.advances true state inside isMatch
          refine .inr ⟨rule, List.mem_cons_self, isMatch, ?_⟩
          simp [probeAll, isMatch, advances.position_lt]
      | false =>
          have unchanged : (rule.parse inner true state).state = state := by
            rcases first with rfl | adds
            · rfl
            · exact adds.declines true state inside isMatch
          have probed : probeAll inner state.position (rule :: rules) state =
              probeAll inner state.position rules state := by
            simp only [probeAll, isMatch, unchanged]
            rfl
          rw [probed]
          rcases ih adds with none | ⟨claiming, member, claims, probedEq⟩
          · exact .inl none
          · exact .inr ⟨claiming, List.mem_cons_of_mem _ member, claims, probedEq⟩

/-! ## A rule for words -/

theorem codeWord_cases (tokenizer : Tokenizer) (word : String) (probe : Bool)
    (state : InlineState) :
    (codeWord word).parse tokenizer probe state = { isMatch := false, state } ∨
    state.position + word.utf8ByteSize ≤ state.limit ∧
      Text.slice? state.source state.position (state.position + word.utf8ByteSize) = some word ∧
      (codeWord word).parse tokenizer probe state =
        { isMatch := true
          state := (if probe then state else state.push (codeToken word)).goto
            (state.position + word.utf8ByteSize) } := by
  by_cases written : (state.position + word.utf8ByteSize ≤ state.limit &&
      Text.slice? state.source state.position (state.position + word.utf8ByteSize) == some word)
        = true
  · right
    have parsed : (codeWord word).parse tokenizer probe state =
        { isMatch := true
          state := (if probe then state else state.push (codeToken word)).goto
            (state.position + word.utf8ByteSize) } := by
      simp only [codeWord, if_pos written]
    simp only [Bool.and_eq_true, decide_eq_true_eq, beq_iff_eq] at written
    exact ⟨written.1, written.2, parsed⟩
  · left
    simp only [codeWord, if_neg written]

theorem keepsContract_codeWord (tokenizer : Tokenizer) {word : String}
    (nonempty : 0 < word.utf8ByteSize) : (codeWord word).KeepsContract tokenizer := by
  refine ⟨⟨?declines, ?advances⟩, ?silent⟩
  case declines =>
    intro probe state _ declines
    rcases codeWord_cases tokenizer word probe state with parsed | ⟨_, _, parsed⟩
    · rw [parsed]
    · rw [parsed] at declines
      cases declines
  case advances =>
    intro probe state _ claims
    rcases codeWord_cases tokenizer word probe state with parsed | ⟨room, _, parsed⟩
    · rw [parsed] at claims
      cases claims
    · rw [parsed]
      have later : state.position ≤ state.position + word.utf8ByteSize := Nat.le_add_right _ _
      have forward : state.position < state.position + word.utf8ByteSize := by omega
      cases probe with
      | true => exact ⟨InlineState.continues_goto later, forward, room⟩
      | false =>
          have sameRun := InlineState.sameRun_push state (codeToken word)
          exact ⟨⟨⟨sameRun.source_eq, sameRun.units_eq, sameRun.limit_eq⟩,
            InlineState.push_pages _ (codeToken word),
            InlineState.push_linkLevel _ (codeToken word),
            (InlineState.extends_push _ (codeToken word)).tokens_suffix, later⟩, forward, room⟩
  case silent =>
    intro state _ claims
    rcases codeWord_cases tokenizer word true state with parsed | ⟨_, _, parsed⟩
    · rw [parsed] at claims
      cases claims
    · rw [parsed]
      exact ⟨_, rfl⟩

end InlineRule

open InlineState (Extends)

/-! ## Wiki links -/

namespace WikiLink

variable {inner : Tokenizer} {state : InlineState}

/-- What the rule for wiki links does: it refuses at once, or it reads a link and writes it
where one stands. -/
theorem parse_cases (inner : Tokenizer) (probe : Bool) (state : InlineState) :
    rule.parse inner probe state = { isMatch := false, state } ∨
    probe = false ∧ state.linkLevel = 0 ∧ mayBegin state = true ∧
      ((∃ back, read inner state = (none, back) ∧
        rule.parse inner probe state = { isMatch := false, state := back }) ∨
      ∃ target label stop back, read inner state = (some (target, label, stop), back) ∧
        rule.parse inner probe state =
          { isMatch := true, state := write inner back target label stop }) := by
  by_cases refused : (probe || decide (0 < state.linkLevel) || !mayBegin state) = true
  · left
    simp only [rule, if_pos refused]
  · right
    rcases found : read inner state with ⟨link, back⟩
    simp only [rule, if_neg refused, found]
    simp only [Bool.or_eq_true, decide_eq_true_eq, Bool.not_eq_true', not_or,
      Bool.not_eq_true, Bool.not_eq_false, Nat.not_lt, Nat.le_zero] at refused
    obtain ⟨⟨notProbed, noneOpen⟩, begins⟩ := refused
    refine ⟨notProbed, noneOpen, begins, ?_⟩
    cases link with
    | none => exact .inl ⟨back, rfl, rfl⟩
    | some link =>
        obtain ⟨target, label, stop⟩ := link
        exact .inr ⟨target, label, stop, back, rfl, rfl⟩

theorem declinesInPlace_rule (ahead : inner.SkipsAhead) : rule.DeclinesInPlace inner := by
  intro state _ declines
  rcases parse_cases inner false state with
    refused | ⟨_, _, _, ⟨back, found, parsed⟩ | ⟨target, label, stop, back, _, parsed⟩⟩
  · rw [refused]
    exact ⟨.refl state, rfl⟩
  · rw [parsed]
    exact continues_read ahead found
  · rw [parsed] at declines
    cases declines

/-- The state in which the label of a link is read, behind the opening token. -/
def insideLabel (state : InlineState) (target : Target) (label : Span) : InlineState :=
  let opened := state.push (openingToken target state.pages)
  { opened with position := label.start, limit := label.stop, linkLevel := opened.linkLevel + 1 }

/-- A link is written as a pair of tokens behind the text that was pending, with whatever is
written for the label between them. -/
theorem exists_tokens_write (keeps : ∀ inside, Extends inside (inner.tokenize inside))
    (state : InlineState) (target : Target) (label : Option Span) (stop : Nat) :
    ∃ inside, (write inner state target label stop).tokens =
      closingToken :: (inside ++ openingToken target state.pages :: state.flush.tokens) := by
  let opened := state.push (openingToken target state.pages)
  have closed (labelled : InlineState) (behind : opened.tokens <:+ labelled.tokens) :
      ∃ inside, ((labelled.push closingToken).goto stop).tokens =
        closingToken :: (inside ++ opened.tokens) := by
    obtain ⟨inside, insideEq⟩ := behind.trans (InlineState.extends_flush labelled).tokens_suffix
    exact ⟨inside, congrArg (closingToken :: ·) insideEq.symm⟩
  cases label with
  | none => exact closed (opened.pushText target.destination) List.suffix_rfl
  | some range =>
      exact closed (writeLabel inner opened range)
        (keeps (insideLabel state target range)).tokens_suffix

theorem extends_write (keeps : ∀ inside, Extends inside (inner.tokenize inside))
    (state : InlineState) (target : Target) (label : Option Span) (stop : Nat) :
    Extends state (write inner state target label stop) := by
  let opened := state.push (openingToken target state.pages)
  have closed {labelled : InlineState} (inside : Extends opened labelled) :
      Extends state ((labelled.push closingToken).goto stop) :=
    ((InlineState.extends_push state (openingToken target state.pages)).trans inside).trans
      ((InlineState.extends_push labelled closingToken).trans (InlineState.extends_goto _ stop))
  cases label with
  | none => exact closed (InlineState.extends_pushText opened target.destination)
  | some range =>
      have written := keeps (insideLabel state target range)
      have labelled : Extends opened (writeLabel inner opened range) :=
        ⟨⟨written.source_eq, written.units_eq, rfl⟩, written.tokens_suffix⟩
      exact closed labelled

/-- Whatever the rule for wiki links does, no token is taken away. -/
theorem extends_parse (ahead : inner.SkipsAhead)
    (keeps : ∀ inside, Extends inside (inner.tokenize inside)) (state : InlineState) :
    Extends state (rule.parse inner false state).state := by
  rcases parse_cases inner false state with
    refused | ⟨_, _, _, ⟨back, found, parsed⟩ | ⟨target, label, stop, back, found, parsed⟩⟩
  · rw [refused]
    exact .refl state
  · rw [parsed]
    exact (continues_read ahead found).1.extends
  · rw [parsed]
    exact (continues_read ahead found).1.extends.trans (extends_write keeps back target label stop)

end WikiLink

/-! ## Skipping -/

namespace Tokenizer

variable {rules : List InlineRule}

/-- With rules that add tokens, skipping leads to a later state. -/
theorem skipsAhead_withRules
    (adds : ∀ depth, ∀ rule ∈ rules, rule = WikiLink.rule ∨
      rule.AddsTokens (withRules rules depth)) (depth : Nat) :
    (withRules rules depth).SkipsAhead := by
  intro state
  cases depth with
  | zero => exact .refl state
  | succ depth =>
      change Continues state (skipWith _ _ state)
      unfold skipWith
      split
      · rename_i inside
        rcases InlineRule.probeAll_cases (adds depth) inside with
          none | ⟨rule, member, claims, probed⟩
        · simp only [none]
          obtain ⟨next, stepEq, later⟩ := InlineState.exists_goto_step inside
          simp only [Bool.false_eq_true, if_false, stepEq]
          exact InlineState.continues_goto (Nat.le_of_lt later)
        · simp only [probed, claims, if_true]
          rcases adds depth rule member with rfl | adds
          · cases claims
          · exact (adds.advances true state inside claims).toContinues
      · exact .refl state

/-- With rules that keep the contract, skipping only moves the cursor. -/
theorem skipsForward_withRules_of_keepsContract
    (contract : ∀ depth, ∀ rule ∈ rules, rule = WikiLink.rule ∨
      rule.KeepsContract (withRules rules depth)) (depth : Nat) :
    (withRules rules depth).SkipsForward := by
  have adds (depth : Nat) (rule : InlineRule) (member : rule ∈ rules) :
      rule = WikiLink.rule ∨ rule.AddsTokens (withRules rules depth) :=
    (contract depth rule member).imp_right InlineRule.KeepsContract.toAddsTokens
  intro state
  cases depth with
  | zero => exact ⟨state.position, rfl, Nat.le_refl _⟩
  | succ depth =>
      change ∃ next, skipWith _ _ state = _ ∧ _
      unfold skipWith
      split
      · rename_i inside
        rcases InlineRule.probeAll_cases (adds depth) inside with
          none | ⟨rule, member, claims, probed⟩
        · simp only [none, Bool.false_eq_true, if_false]
          obtain ⟨next, stepEq, later⟩ := InlineState.exists_goto_step inside
          exact ⟨next, stepEq, Nat.le_of_lt later⟩
        · simp only [probed, claims, if_true]
          rcases contract depth rule member with rfl | contract
          · cases claims
          · obtain ⟨next, movedEq⟩ := contract.silent state inside claims
            have advances := contract.advances true state inside claims
            rw [movedEq] at advances
            exact ⟨next, movedEq, advances.position_le⟩
      · exact ⟨state.position, rfl, Nat.le_refl _⟩

/-- Rules that add tokens decline in place, and so does the one for wiki links. -/
theorem declinesInPlace_of_addsTokens {inner : Tokenizer} (ahead : inner.SkipsAhead)
    (adds : ∀ rule ∈ rules, rule = WikiLink.rule ∨ rule.AddsTokens inner) :
    ∀ rule ∈ rules, rule.DeclinesInPlace inner := by
  intro rule member
  rcases adds rule member with rfl | adds
  · exact WikiLink.declinesInPlace_rule ahead
  · intro state inside declines
    rw [adds.declines false state inside declines]
    exact ⟨.refl state, rfl⟩

/-- The state behind a round of the loop. -/
def afterRound (rules : List InlineRule) (inner : Tokenizer) (state : InlineState) :
    InlineState :=
  let attempt := InlineRule.tryAll inner rules state
  if attempt.isMatch then attempt.state else attempt.state.step true

theorem extends_afterRound {inner : Tokenizer} {state : InlineState} (ahead : inner.SkipsAhead)
    (adds : ∀ rule ∈ rules, rule = WikiLink.rule ∨ rule.AddsTokens inner)
    (keeps : ∀ inside, Extends inside (inner.tokenize inside))
    (inside : state.position < state.limit) : Extends state (afterRound rules inner state) := by
  have decline := declinesInPlace_of_addsTokens ahead adds
  unfold afterRound
  rcases InlineRule.tryAll_cases decline inside with
    ⟨reached, tried, continues, _⟩ | ⟨rule, reached, asked, claims, tried⟩
  · simp only [tried, Bool.false_eq_true, if_false]
    exact continues.extends.trans (InlineState.extends_step reached true)
  · simp only [tried, claims, if_true]
    obtain ⟨continues, positionEq⟩ := asked.continues decline inside
    refine continues.extends.trans ?_
    have stillInside : reached.position < reached.limit := by
      rw [positionEq, continues.limit_eq]
      exact inside
    rcases adds rule asked.mem with rfl | adds
    · exact WikiLink.extends_parse ahead keeps reached
    · exact (adds.advances false reached stillInside claims).extends

/-- With rules that add tokens, no token is taken away. -/
theorem extends_withRules
    (adds : ∀ depth, ∀ rule ∈ rules, rule = WikiLink.rule ∨
      rule.AddsTokens (withRules rules depth)) (depth : Nat) (state : InlineState) :
    Extends state ((withRules rules depth).tokenize state) := by
  induction depth generalizing state with
  | zero => exact InlineState.extends_flush state
  | succ depth ih =>
      change Extends state (tokenizeWith rules (withRules rules depth) _ state)
      induction state.limit - state.position generalizing state with
      | zero => exact InlineState.extends_flush state
      | succ rounds roundsIh =>
          unfold tokenizeWith
          split
          · rename_i inside
            have round :=
              extends_afterRound (skipsAhead_withRules adds depth) (adds depth) ih inside
            exact round.trans (roundsIh _)
          · exact InlineState.extends_flush state

end Tokenizer

/-! ## The contract of wiki links -/

namespace WikiLink

open Tokenizer (withRules)

/-- Among rules that keep the contract, the rule for wiki links keeps it, however deep it is
called.  Where it declines, the state is as it was.  It claims the source only where tokens
are to be written and no link is open; the cursor is then behind two closing brackets inside
the run, the limit is as it was, and what was written is behind the old tokens and the
pending text the opening token of a link, further tokens, and the closing one. -/
theorem parse_contract (rules : List InlineRule)
    (contract : ∀ depth, ∀ other ∈ rules, other = rule ∨
      other.KeepsContract (withRules rules depth))
    (depth : Nat) (probe : Bool) (state : InlineState) {attempt : InlineRule.Attempt}
    (parsed : rule.parse (withRules rules depth) probe state = attempt) :
    (attempt.isMatch = false → attempt.state = state) ∧
    (attempt.isMatch = true →
      probe = false ∧ state.linkLevel = 0 ∧
      (∃ close, attempt.state.position = close + 2 ∧
        Text.byteAt? state.source close = some ']' ∧
        Text.byteAt? state.source (close + 1) = some ']') ∧
      state.position < attempt.state.position ∧ attempt.state.position ≤ state.limit ∧
      attempt.state.limit = state.limit ∧
      ∃ opener inside closer, opener.kind = .linkOpen ∧ closer.kind = .linkClose ∧
        attempt.state.tokens = closer :: (inside ++ opener :: state.flush.tokens)) := by
  have forward := Tokenizer.skipsForward_withRules_of_keepsContract contract depth
  have adds (depth : Nat) (other : InlineRule) (member : other ∈ rules) :
      other = rule ∨ other.AddsTokens (withRules rules depth) :=
    (contract depth other member).imp_right InlineRule.KeepsContract.toAddsTokens
  subst parsed
  rcases parse_cases (withRules rules depth) probe state with
    refused | ⟨notProbed, noneOpen, begins, outcome⟩
  · rw [refused]
    exact ⟨fun _ => rfl, nofun⟩
  · rcases outcome with ⟨back, found, parsed⟩ | ⟨target, label, stop, back, found, parsed⟩
    · obtain rfl : back = state := by rw [← read_state_eq forward state, found]
      rw [parsed]
      exact ⟨fun _ => rfl, nofun⟩
    · obtain rfl : back = state := by rw [← read_state_eq forward state, found]
      rw [parsed]
      refine ⟨nofun, fun _ => ⟨notProbed, noneOpen, ?_⟩⟩
      have encloses := encloses_of_read forward.skipsAhead begins found
      obtain ⟨close, _, _, firstBracket, secondBracket, linkTo⟩ :=
        exists_linkTo?_of_read forward.skipsAhead found
      have keeps := Tokenizer.extends_withRules adds depth
      obtain ⟨inside, tokensEq⟩ := exists_tokens_write keeps back target label stop
      exact ⟨⟨close, (of_linkTo? linkTo).2.2.2, firstBracket, secondBracket⟩, encloses.later,
        encloses.stop_le, (extends_write keeps back target label stop).limit_eq,
        openingToken target back.pages, inside, closingToken, rfl, rfl, tokensEq⟩

/-- Behind some text stands a link whose label holds a word that is written as code. -/
def codeInLabel : InlineState :=
  { source := "x [[a|b%]] y", position := 2, limit := 12, pages := ⟨[]⟩, pending := "x ",
    units := [⟨0, 12, .text "x [[a|b%]] y" true⟩] }

theorem parse_contract_codeInLabel :
    (∀ depth, ∀ other ∈ [rule, InlineRule.codeWord "%"], other = rule ∨
      other.KeepsContract (withRules [rule, InlineRule.codeWord "%"] depth)) ∧
    (rule.parse (withRules [rule, InlineRule.codeWord "%"] 2) false codeInLabel).isMatch =
      true ∧
    (rule.parse (withRules [rule, InlineRule.codeWord "%"] 2) false codeInLabel).state.position =
      10 ∧
    ∃ opener inside closer, opener.kind = .linkOpen ∧ closer.kind = .linkClose ∧
      (rule.parse (withRules [rule, InlineRule.codeWord "%"] 2) false codeInLabel).state.tokens =
        closer :: (inside ++ [opener, Token.ofText "x "]) := by
  have contract : ∀ depth, ∀ other ∈ [rule, InlineRule.codeWord "%"], other = rule ∨
      other.KeepsContract (withRules [rule, InlineRule.codeWord "%"] depth) := by
    intro depth other member
    rcases List.mem_pair.mp member with rfl | rfl
    · exact .inl rfl
    · exact .inr (InlineRule.keepsContract_codeWord _ (by decide))
  have claims : (rule.parse (withRules [rule, InlineRule.codeWord "%"] 2) false
      codeInLabel).isMatch = true := by decide +kernel
  refine ⟨contract, claims, by decide +kernel, ?_⟩
  exact ((parse_contract _ contract 2 false codeInLabel rfl).2 claims).2.2.2.2.2.2

end WikiLink

end WikiPress
