import WikiPress.Inline.WikiLink
import WikiPress.Proofs.Inline.Cursor
import WikiPress.Proofs.Pipe

/-!
# What a wiki link encloses

The end of a link is found by skipping token by token, and skipping only ever moves the
cursor on.  A link that is read therefore lies before the limit, begins and ends between
two characters, and so does its label, which lies inside it.  Behind the search the cursor
is put back; where skipping does nothing but move the cursor, the state is what it was.
-/

namespace WikiPress

/-! ## Skipping -/

namespace InlineState

/-- A silent step moves the cursor on and does nothing else. -/
theorem exists_goto_step {state : InlineState} (inside : state.position < state.limit) :
    ∃ next, state.step false = state.goto next ∧ state.position < next := by
  unfold step
  cases found : state.currentUnit? with
  | none => exact ⟨state.limit, rfl, inside⟩
  | some current =>
      have behind : state.position < current.stop := by
        simpa using List.find?_some found
      simp only
      split
      · exact ⟨_, rfl, by omega⟩
      · cases content : current.content with
        | text text isLiteral =>
            cases isLiteral with
            | true =>
                cases read : Text.charAt? state.source state.position with
                | none => exact ⟨current.stop, rfl, behind⟩
                | some char =>
                    have size := char.utf8Size_pos
                    exact ⟨state.position + char.utf8Size, rfl, by omega⟩
            | false => exact ⟨current.stop, rfl, behind⟩
        | opening token => exact ⟨current.stop, rfl, behind⟩
        | closing token => exact ⟨current.stop, rfl, behind⟩
        | leaf token => exact ⟨current.stop, rfl, behind⟩

/-- A later state of the same run, with the same number of open links.  The tokens that were
written are still there, and the cursor has not been moved back. -/
structure Continues (before after : InlineState) : Prop extends SameRun before after where
  pages_eq : after.pages = before.pages
  linkLevel_eq : after.linkLevel = before.linkLevel
  tokens_suffix : before.tokens <:+ after.tokens
  position_le : before.position ≤ after.position

theorem Continues.refl (state : InlineState) : Continues state state :=
  ⟨.refl state, rfl, rfl, List.suffix_rfl, Nat.le_refl _⟩

theorem Continues.trans {first second third : InlineState} (before : Continues first second)
    (behind : Continues second third) : Continues first third :=
  ⟨before.toSameRun.trans behind.toSameRun, behind.pages_eq.trans before.pages_eq,
    behind.linkLevel_eq.trans before.linkLevel_eq,
    before.tokens_suffix.trans behind.tokens_suffix,
    Nat.le_trans before.position_le behind.position_le⟩

/-- Moving the cursor on. -/
theorem continues_goto {state : InlineState} {position : Nat} (later : state.position ≤ position) :
    Continues state (state.goto position) :=
  ⟨⟨rfl, rfl, rfl⟩, rfl, rfl, List.suffix_rfl, later⟩

end InlineState

open InlineState (Continues)

namespace Tokenizer

/-- Skipping leads to a later state. -/
def SkipsAhead (tokenizer : Tokenizer) : Prop :=
  ∀ state, Continues state (tokenizer.skip state)

/-- Skipping moves the cursor, and not back. -/
def SkipsForward (tokenizer : Tokenizer) : Prop :=
  ∀ state, ∃ next, tokenizer.skip state = state.goto next ∧ state.position ≤ next

theorem SkipsForward.skipsAhead {tokenizer : Tokenizer} (forward : tokenizer.SkipsForward) :
    tokenizer.SkipsAhead := by
  intro state
  obtain ⟨next, skipEq, later⟩ := forward state
  rw [skipEq]
  exact InlineState.continues_goto later

/-- A wiki link is no token that could be skipped, so that what is skipped is a step. -/
theorem skipsForward_withRules (depth : Nat) : (withRules [WikiLink.rule] depth).SkipsForward := by
  intro state
  cases depth with
  | zero => exact ⟨state.position, rfl, Nat.le_refl _⟩
  | succ depth =>
      change ∃ next, skipWith _ _ state = _ ∧ _
      unfold skipWith
      by_cases inside : state.position < state.limit
      · obtain ⟨next, stepEq, later⟩ := InlineState.exists_goto_step inside
        refine ⟨next, ?_, Nat.le_of_lt later⟩
        rw [if_pos inside, ← stepEq]
        rfl
      · exact ⟨state.position, if_neg inside, Nat.le_refl _⟩

end Tokenizer

namespace WikiLink

variable {tokenizer : Tokenizer} {state : InlineState}

/-! ## Brackets -/

/-- The closing brackets of a link stand at or behind the cursor, before the limit. -/
theorem of_findClose (ahead : tokenizer.SkipsAhead) {limit fuel close : Nat}
    (found : (findClose tokenizer limit fuel state).1 = some close) :
    state.position ≤ close ∧ close + 2 ≤ limit ∧
      Text.byteAt? state.source close = some ']' ∧
      Text.byteAt? state.source (close + 1) = some ']' := by
  induction fuel generalizing state with
  | zero => cases found
  | succ fuel ih =>
      unfold findClose at found
      split at found
      · rename_i room
        split at found
        · rename_i brackets
          cases found
          simp only [Bool.and_eq_true, beq_iff_eq] at brackets
          exact ⟨Nat.le_refl _, room, brackets⟩
        · have skips := ahead state
          obtain ⟨nextLe, rest⟩ := ih found
          rw [skips.source_eq] at rest
          exact ⟨Nat.le_trans skips.position_le nextLe, rest⟩
      · cases found

/-- The search leads to a later state. -/
theorem continues_findClose (ahead : tokenizer.SkipsAhead) (limit fuel : Nat)
    (state : InlineState) : Continues state (findClose tokenizer limit fuel state).2 := by
  induction fuel generalizing state with
  | zero => exact .refl state
  | succ fuel ih =>
      unfold findClose
      split
      · split
        · exact .refl state
        · exact (ahead state).trans (ih (tokenizer.skip state))
      · exact .refl state

/-- A search that only moves the cursor changes nothing else. -/
theorem exists_goto_findClose (forward : tokenizer.SkipsForward) (limit fuel : Nat)
    (state : InlineState) :
    ∃ next, (findClose tokenizer limit fuel state).2 = state.goto next := by
  induction fuel generalizing state with
  | zero => exact ⟨state.position, rfl⟩
  | succ fuel ih =>
      unfold findClose
      split
      · split
        · exact ⟨state.position, rfl⟩
        · obtain ⟨next, skipEq, _⟩ := forward state
          obtain ⟨final, searchEq⟩ := ih (state.goto next)
          rw [skipEq]
          exact ⟨final, searchEq⟩
      · exact ⟨state.position, rfl⟩

/-- The brackets with which a link begins. -/
theorem of_mayBegin (begins : mayBegin state = true) :
    state.position < state.limit ∧
      Text.byteAt? state.source (state.position + 1) = some '[' := by
  unfold mayBegin at begins
  simp only [Bool.and_eq_true, decide_eq_true_eq, beq_iff_eq] at begins
  obtain ⟨⟨room, _⟩, second⟩ := begins
  exact ⟨by omega, second⟩

/-- Both sides of an ASCII character are boundaries. -/
theorem boundaries_of_byteAt? {text : String} {offset : Nat} {char : Char}
    (found : Text.byteAt? text offset = some char) (ascii : char.toNat < 128) :
    Text.isBoundary text offset = true ∧ Text.isBoundary text (offset + 1) = true := by
  obtain ⟨before, behind, splits, size⟩ := Text.exists_splitsAt_of_byteAt? found ascii
  exact ⟨splits.isBoundary, (splits.succ size).isBoundary⟩

/-! ## Labels -/

/-- A range that begins and ends between two characters. -/
structure Cut (source : String) (start stop : Nat) : Prop where
  inOrder : start ≤ stop
  atStart : Text.isBoundary source start = true
  atStop : Text.isBoundary source stop = true

/-- The label is what stands behind the first pipe of a content. -/
theorem cut_label {source : String} {start stop : Nat} (content : Cut source start stop)
    {target label : Span}
    (found : ranges (Text.slice source start stop) start = (target, some label)) :
    start ≤ label.start ∧ Cut source label.start label.stop ∧ label.stop ≤ stop := by
  obtain ⟨before, behind, splits⟩ := Text.isBoundary_iff.mp content.atStart
  obtain ⟨middle, rest, behindEq, stopEq⟩ := splits.exists_middle content.atStop content.inOrder
  subst behindEq
  have slice : (Text.slice source start stop).toList = middle := by
    rw [← stopEq, splits.slice_eq, String.toList_ofList]
  unfold ranges Pipe.ranges at found
  rw [slice] at found
  cases segments : Pipe.segments (some 2) middle with
  | nil =>
      rw [segments] at found
      cases found
  | cons first others =>
      cases others with
      | nil =>
          rw [segments] at found
          cases found
      | cons second more =>
          rw [segments] at found
          cases found
          obtain ⟨last, middleEq⟩ := Pipe.of_segments_eq_cons_cons segments
          have toLabel : Text.SplitsAt source start before
              ((first ++ ['|']) ++ (second ++ (last ++ rest))) := by
            have whole := splits
            rw [middleEq] at whole
            simpa using whole
          have pipe : '|'.utf8Size = 1 := rfl
          have atLabel := toLabel.advance
          have behindLabel := atLabel.advance
          have lengths := congrArg Text.byteLength middleEq
          simp only [Text.byteLength_append, Text.byteLength_cons, Text.byteLength_nil, pipe]
            at atLabel behindLabel lengths
          have startEq : start + (0 + Text.byteLength first + 1) =
              start + (Text.byteLength first + (1 + 0)) := by omega
          have labelStop : start + (0 + Text.byteLength first + 1 + Text.byteLength second) =
              start + (Text.byteLength first + (1 + 0)) + Text.byteLength second := by omega
          refine ⟨Nat.le_add_right _ _, ⟨by simp, ?_, ?_⟩, ?_⟩
          · change Text.isBoundary source (start + (0 + Text.byteLength first + 1)) = true
            rw [startEq]
            exact atLabel.isBoundary
          · change Text.isBoundary source
              (start + (0 + Text.byteLength first + 1 + Text.byteLength second)) = true
            rw [labelStop]
            exact behindLabel.isBoundary
          · change start + (0 + Text.byteLength first + 1 + Text.byteLength second) ≤ stop
            omega

/-! ## Links -/

/-- A place in a text where a wiki link may stand: its opening brackets are at `start`, its
closing ones at `close`. -/
structure Place where
  start : Nat
  close : Nat

namespace Place

/-- Where the link ends. -/
def stop (place : Place) : Nat :=
  place.close + 2

/-- The ranges of the target and of the label, if there is one. -/
def parts (source : String) (place : Place) : Span × Option Span :=
  ranges (Text.slice source (place.start + 2) place.close) (place.start + 2)

/-- Where the link leads. -/
def target (source : String) (place : Place) : Target :=
  Target.ofText (Text.slice source (place.parts source).1.start (place.parts source).1.stop)

end Place

/-- A part of a run that can be replaced as a whole. -/
structure Replaceable (state : InlineState) (start stop : Nat) : Prop where
  cut : Cut state.source start stop
  balanced : state.isBalanced start stop = true

/-- What is known about a link that is read at the cursor. -/
structure Encloses (state : InlineState) (label : Option Span) (stop : Nat) : Prop where
  later : state.position < stop
  stop_le : stop ≤ state.limit
  atStop : Text.isBoundary state.source stop = true
  balanced : state.isBalanced state.position stop = true
  label : ∀ range ∈ label, state.position ≤ range.start ∧
    Replaceable state range.start range.stop ∧ range.stop ≤ stop

/-- What is read up to closing brackets. -/
theorem of_linkTo? {close : Nat} {target : Target} {label : Option Span} {stop : Nat}
    (found : linkTo? state close = some (target, label, stop)) :
    close ≠ state.position + 2 ∧ target = Place.target state.source ⟨state.position, close⟩ ∧
      label = (Place.parts state.source ⟨state.position, close⟩).2 ∧ stop = close + 2 := by
  simp only [linkTo?] at found
  split at found
  · cases found
  · rename_i valid
    obtain ⟨targetEq, labelled⟩ := Prod.mk.inj (Option.some.inj found)
    obtain ⟨labelEq, stopEq⟩ := Prod.mk.inj labelled
    simp only [Bool.or_eq_true, decide_eq_true_eq, not_or] at valid
    exact ⟨valid.1.1.1, targetEq.symm, labelEq.symm, stopEq.symm⟩

/-- What is read behind the opening brackets of a link up to its closing ones. -/
theorem encloses_of_linkTo? (begins : mayBegin state = true) {close : Nat}
    (contentLe : state.position + 2 ≤ close) (closeLe : close + 2 ≤ state.limit)
    (closes : Text.byteAt? state.source close = some ']' ∧
      Text.byteAt? state.source (close + 1) = some ']')
    {target : Target} {label : Option Span} {stop : Nat}
    (found : linkTo? state close = some (target, label, stop)) : Encloses state label stop := by
  obtain ⟨firstBracket, secondBracket⟩ := closes
  obtain ⟨_, opened⟩ := of_mayBegin begins
  have content : Cut state.source (state.position + 2) close :=
    ⟨contentLe, (boundaries_of_byteAt? opened (by decide)).2,
      (boundaries_of_byteAt? firstBracket (by decide)).1⟩
  simp only [linkTo?] at found
  rcases parts : ranges (Text.slice state.source (state.position + 2) close)
    (state.position + 2) with ⟨targetRange, labelRange⟩
  rw [parts] at found
  simp only at found
  split at found
  · cases found
  · rename_i valid
    cases found
    simp only [Bool.or_eq_true, decide_eq_true_eq, Bool.not_eq_true', not_or,
      Bool.not_eq_false, Option.any_eq_true, not_exists, not_and] at valid
    obtain ⟨⟨⟨_, _⟩, balanced⟩, labelBalanced⟩ := valid
    refine ⟨by omega, closeLe, (boundaries_of_byteAt? secondBracket (by decide)).2, balanced, ?_⟩
    intro range member
    rw [Option.mem_def.mp member] at parts
    obtain ⟨startLe, cut, leClose⟩ := cut_label content parts
    exact ⟨by omega, ⟨cut, labelBalanced range member⟩, by omega⟩

/-- Reading a link puts the cursor back. -/
theorem continues_read (ahead : tokenizer.SkipsAhead) {back : InlineState}
    {link : Option (Target × Option Span × Nat)} (found : read tokenizer state = (link, back)) :
    Continues state back ∧ back.position = state.position := by
  obtain rfl : (read tokenizer state).2 = back := congrArg Prod.snd found
  have inside : Continues state (state.goto (state.position + 2)) :=
    InlineState.continues_goto (Nat.le_add_right _ _)
  have searched := inside.trans (continues_findClose ahead state.limit
    (state.limit - state.position) (state.goto (state.position + 2)))
  exact ⟨⟨⟨searched.source_eq, searched.units_eq, searched.limit_eq⟩, searched.pages_eq,
    searched.linkLevel_eq, searched.tokens_suffix, Nat.le_refl _⟩, rfl⟩

/-- Where skipping only moves the cursor, reading a link changes nothing. -/
theorem read_state_eq (forward : tokenizer.SkipsForward) (state : InlineState) :
    (read tokenizer state).2 = state := by
  obtain ⟨next, searchEq⟩ := exists_goto_findClose forward state.limit
    (state.limit - state.position) (state.goto (state.position + 2))
  change (findClose tokenizer state.limit (state.limit - state.position)
    (state.goto (state.position + 2))).2.goto state.position = state
  rw [searchEq]
  rfl

/-- Where the closing brackets stand to which a link is read. -/
theorem exists_linkTo?_of_read (ahead : tokenizer.SkipsAhead) {back : InlineState}
    {link : Target × Option Span × Nat} (found : read tokenizer state = (some link, back)) :
    ∃ close, state.position + 2 ≤ close ∧ close + 2 ≤ state.limit ∧
      Text.byteAt? state.source close = some ']' ∧
      Text.byteAt? state.source (close + 1) = some ']' ∧
      linkTo? back close = some link := by
  obtain ⟨linkEq, backEq⟩ := Prod.mk.inj found
  obtain ⟨close, closes, linkTo⟩ := Option.bind_eq_some_iff.mp linkEq
  obtain ⟨contentLe, stopLe, brackets⟩ := of_findClose ahead closes
  exact ⟨close, contentLe, stopLe, brackets.1, brackets.2, backEq ▸ linkTo⟩

theorem mayBegin_congr {back : InlineState} (continues : Continues state back)
    (positionEq : back.position = state.position) : mayBegin back = mayBegin state := by
  unfold mayBegin
  rw [continues.source_eq, continues.limit_eq, positionEq]

theorem encloses_of_read (ahead : tokenizer.SkipsAhead) (begins : mayBegin state = true)
    {target : Target} {label : Option Span} {stop : Nat} {back : InlineState}
    (found : read tokenizer state = (some (target, label, stop), back)) :
    Encloses back label stop := by
  obtain ⟨continues, positionEq⟩ := continues_read ahead found
  obtain ⟨close, contentLe, closeLe, firstBracket, secondBracket, linkTo⟩ :=
    exists_linkTo?_of_read ahead found
  rw [← mayBegin_congr continues positionEq] at begins
  rw [← continues.source_eq] at firstBracket secondBracket
  exact encloses_of_linkTo? begins (positionEq ▸ contentLe) (continues.limit_eq ▸ closeLe)
    ⟨firstBracket, secondBracket⟩ linkTo

end WikiLink

end WikiPress
