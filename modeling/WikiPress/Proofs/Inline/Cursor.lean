import WikiPress.Proofs.Inline.Units

/-!
# Steps of the cursor

A cursor stands at borders: between two characters, and not inside a unit that is read
as a whole.  One step leads from a border to a later one, not beyond the limit, and
writes exactly the marks that lie between them.
-/

namespace WikiPress

open SourceUnit

namespace InlineState

/-- The kinds of the tokens written so far that open and close elements. -/
def brackets (state : InlineState) : List Token.Kind :=
  Token.brackets state.tokens.reverse

@[simp]
theorem brackets_flush (state : InlineState) : state.flush.brackets = state.brackets := by
  unfold flush
  split
  · rfl
  · unfold brackets
    rw [List.reverse_cons, Token.brackets_append, Token.brackets_singleton]
    exact List.append_nil _

@[simp]
theorem brackets_push (state : InlineState) (token : Token) :
    (state.push token).brackets = state.brackets ++ Token.brackets [token] := by
  rw [← brackets_flush state]
  unfold push brackets
  rw [List.reverse_cons, Token.brackets_append]

/-- Two states walk over the same part of the same units. -/
structure SameRun (first second : InlineState) : Prop where
  source_eq : second.source = first.source
  units_eq : second.units = first.units
  limit_eq : second.limit = first.limit

theorem SameRun.refl (state : InlineState) : SameRun state state :=
  ⟨rfl, rfl, rfl⟩

theorem SameRun.trans {first second third : InlineState} (before : SameRun first second)
    (behind : SameRun second third) : SameRun first third :=
  ⟨behind.source_eq.trans before.source_eq, behind.units_eq.trans before.units_eq,
    behind.limit_eq.trans before.limit_eq⟩

theorem sameRun_flush (state : InlineState) : SameRun state state.flush := by
  unfold flush
  split <;> exact ⟨rfl, rfl, rfl⟩

theorem sameRun_push (state : InlineState) (token : Token) : SameRun state (state.push token) :=
  (sameRun_flush state).trans ⟨rfl, rfl, rfl⟩

/-- A state writes kinds of tokens, and keeps to its run. -/
structure Writes (before : InlineState) (kinds : List Token.Kind) (written : InlineState) :
    Prop where
  sameRun : SameRun before written
  brackets_eq : written.brackets = before.brackets ++ kinds

theorem Writes.refl (state : InlineState) : Writes state [] state :=
  ⟨.refl state, (List.append_nil _).symm⟩

theorem Writes.trans {first second third : InlineState} {kinds more : List Token.Kind}
    (before : Writes first kinds second) (behind : Writes second more third) :
    Writes first (kinds ++ more) third := by
  refine ⟨before.sameRun.trans behind.sameRun, ?_⟩
  rw [behind.brackets_eq, before.brackets_eq, List.append_assoc]

theorem Writes.goto {state written : InlineState} {kinds : List Token.Kind}
    (writes : Writes state kinds written) (position : Nat) :
    Writes state kinds (written.goto position) :=
  ⟨⟨writes.sameRun.source_eq, writes.sameRun.units_eq, writes.sameRun.limit_eq⟩,
    writes.brackets_eq⟩

theorem writes_flush (state : InlineState) : Writes state [] state.flush :=
  ⟨sameRun_flush state, (brackets_flush state).trans (List.append_nil _).symm⟩

theorem writes_push (state : InlineState) (token : Token) :
    Writes state (Token.brackets [token]) (state.push token) :=
  ⟨sameRun_push state token, brackets_push state token⟩

theorem writes_pushText (state : InlineState) (text : String) :
    Writes state [] (state.pushText text) :=
  ⟨⟨rfl, rfl, rfl⟩, (List.append_nil _).symm⟩

theorem exists_passToken (state : InlineState) (emit : Bool) (token : Token) (stop : Nat) :
    ∃ written, state.passToken emit token stop = written.goto stop ∧
      Writes state (if emit then Token.brackets [token] else []) written := by
  cases emit with
  | false => exact ⟨state, rfl, .refl state⟩
  | true =>
      let counted := { state with linkLevel := linkLevelAfter state.linkLevel token }
      have writes := writes_push counted token
      exact ⟨counted.push token, rfl, ⟨writes.sameRun.source_eq, writes.sameRun.units_eq,
        writes.sameRun.limit_eq⟩, writes.brackets_eq⟩

end InlineState

namespace SourceUnit

/-- The token of a unit is written as the mark of the unit. -/
theorem Fits.brackets_eq {sourceUnit : SourceUnit} (fits : sourceUnit.Fits) {token : Token}
    (content : sourceUnit.content = .opening token ∨ sourceUnit.content = .closing token ∨
      sourceUnit.content = .leaf token) :
    Token.brackets [token] = sourceUnit.mark?.toList := by
  unfold Fits at fits
  unfold mark?
  rw [Token.brackets_singleton]
  rcases content with content | content | content
  · rw [content] at fits ⊢
    obtain ⟨closer, role⟩ := fits
    rw [role]
    rfl
  · rw [content] at fits ⊢
    rw [fits]
    rfl
  · rw [content] at fits ⊢
    rw [if_pos fits]
    rfl

/-- A position at which a cursor may stand. -/
structure Border (source : String) (units : List SourceUnit) (position : Nat) : Prop where
  boundary : Text.isBoundary source position = true
  clean : Clean units position

/-- The first unit that ends behind a position, with the units before and behind it. -/
structure Around (units : List SourceUnit) (position : Nat) (passed : List SourceUnit)
    (current : SourceUnit) (ahead : List SourceUnit) : Prop where
  units_eq : units = passed ++ current :: ahead
  passed_stop : ∀ sourceUnit ∈ passed, sourceUnit.stop ≤ position
  lt_stop : position < current.stop

theorem exists_around {units : List SourceUnit} {position : Nat} {current : SourceUnit}
    (found : units.find? (fun sourceUnit => position < sourceUnit.stop) = some current) :
    ∃ passed ahead, Around units position passed current ahead := by
  obtain ⟨behind, passed, ahead, unitsEq, before⟩ := List.find?_eq_some_iff_append.mp found
  refine ⟨passed, ahead, unitsEq, ?_, by simpa using behind⟩
  intro sourceUnit member
  simpa using before sourceUnit member

namespace Around

variable {units passed ahead : List SourceUnit} {position : Nat} {current : SourceUnit}

theorem mem (around : Around units position passed current ahead) : current ∈ units := by
  rw [around.units_eq]
  simp

theorem ahead_start (around : Around units position passed current ahead)
    (ordered : Ordered units) : ∀ sourceUnit ∈ ahead, current.stop ≤ sourceUnit.start :=
  fun _ member => (around.units_eq ▸ ordered).append_right.stop_le_start member

/-- Every unit is passed, is the one at the position, or lies ahead. -/
theorem cases_mem (around : Around units position passed current ahead)
    {sourceUnit : SourceUnit} (member : sourceUnit ∈ units) :
    sourceUnit ∈ passed ∨ sourceUnit = current ∨ sourceUnit ∈ ahead := by
  rw [around.units_eq] at member
  simpa using member

/-- Up to a position that is not behind the current unit, the range holds no unit but
perhaps this one. -/
theorem marksIn_eq (around : Around units position passed current ahead)
    (ordered : Ordered units) {next : Nat} (leStop : next ≤ current.stop) :
    marksIn units position next = (markIn? position next current).toList := by
  have passedNone : marksIn passed position next = [] :=
    (around.units_eq ▸ ordered).append_left.marksIn_eq_nil_of_stop_le around.passed_stop
  have aheadNone : marksIn ahead position next = [] := by
    apply (around.units_eq ▸ ordered).append_right.of_cons.marksIn_eq_nil_of_le_start
    intro sourceUnit member
    exact Nat.le_trans leStop (around.ahead_start ordered sourceUnit member)
  rw [around.units_eq, marksIn_append, marksIn_cons, passedNone, aheadNone]
  simp

/-- A position between the end of the last unit and the end of the current one is clean
unless it lies inside the current unit and this is read as a whole. -/
theorem clean (around : Around units position passed current ahead) (ordered : Ordered units)
    {next : Nat} (positionLe : position ≤ next) (leStop : next ≤ current.stop)
    (outside : current.isLiteral = false → next ≤ current.start ∨ next = current.stop) :
    Clean units next := by
  intro sourceUnit member notLiteral inside
  rcases around.cases_mem member with before | rfl | later
  · have stop := around.passed_stop sourceUnit before
    omega
  · rcases outside notLiteral with start | stop <;> omega
  · have start := around.ahead_start ordered sourceUnit later
    omega

end Around

end SourceUnit

namespace InlineState

/-- A cursor in a source that is divided into units, with a border at its position and
at its limit. -/
structure Placed (source : String) (units : List SourceUnit) (state : InlineState) : Prop where
  source_eq : state.source = source
  units_eq : state.units = units
  atPosition : Border source units state.position
  atLimit : Border source units state.limit

section Step

variable {source : String} {units : List SourceUnit} (wellFormed : WellFormed source units)
  {state : InlineState} (placed : Placed source units state)
  (inside : state.position < state.limit)
include wellFormed placed inside

/-- A unit that is read as a whole is read from its start to its end. -/
theorem read_whole {passed ahead : List SourceUnit} {current : SourceUnit}
    (around : Around units state.position passed current ahead)
    (notLiteral : current.isLiteral = false) (reached : ¬ state.position < current.start) :
    state.position = current.start ∧ current.stop ≤ state.limit ∧
      Border source units current.stop ∧
      marksIn units state.position current.stop = current.mark?.toList := by
  have behind := around.lt_stop
  have notInside := placed.atPosition.clean current around.mem notLiteral
  have notCut := placed.atLimit.clean current around.mem notLiteral
  have startEq : state.position = current.start := by omega
  refine ⟨startEq, by omega, ⟨(wellFormed.boundaries current around.mem).2, ?_⟩, ?_⟩
  · exact around.clean wellFormed.ordered (Nat.le_of_lt behind) (Nat.le_refl _) fun _ => .inr rfl
  · rw [around.marksIn_eq wellFormed.ordered (Nat.le_refl _), startEq, markIn?,
      if_pos ⟨Nat.le_refl _, Nat.le_refl _⟩]

/-- A unit with a token is passed over, and its token is written. -/
theorem exists_pass {passed ahead : List SourceUnit} {current : SourceUnit}
    (around : Around units state.position passed current ahead) {token : Token}
    (content : current.content = .opening token ∨ current.content = .closing token ∨
      current.content = .leaf token)
    (reached : ¬ state.position < current.start) (emit : Bool) :
    ∃ written next, state.passToken emit token current.stop = written.goto next ∧
      state.position < next ∧ next ≤ state.limit ∧ Border source units next ∧
      Writes state (if emit then marksIn units state.position next else []) written := by
  have notLiteral : current.isLiteral = false := by
    unfold isLiteral
    rcases content with content | content | content <;> rw [content]
  obtain ⟨_, leLimit, border, marks⟩ :=
    read_whole wellFormed placed inside around notLiteral reached
  obtain ⟨written, passes, writes⟩ := exists_passToken state emit token current.stop
  rw [(wellFormed.fits current around.mem).brackets_eq content, ← marks] at writes
  exact ⟨written, current.stop, passes, around.lt_stop, leLimit, border, writes⟩

/-- Literal text is read by characters, up to its end or the limit. -/
theorem read_char {passed ahead : List SourceUnit} {current : SourceUnit}
    (around : Around units state.position passed current ahead)
    (literal : current.isLiteral = true) :
    ∃ char, Text.charAt? state.source state.position = some char ∧
      state.position + char.utf8Size ≤ state.limit ∧
      Border source units (state.position + char.utf8Size) ∧
      marksIn units state.position (state.position + char.utf8Size) = [] := by
  have behind := around.lt_stop
  have stopBoundary := (wellFormed.boundaries current around.mem).2
  have stopLe := Text.le_utf8ByteSize_of_isBoundary stopBoundary
  obtain ⟨char, charEq, boundary, next⟩ :=
    Text.exists_charAt? placed.atPosition.boundary (by omega)
  have leStop := next current.stop stopBoundary behind
  refine ⟨char, by rw [placed.source_eq, charEq], next state.limit placed.atLimit.boundary inside,
    ⟨boundary, ?_⟩, ?_⟩
  · exact around.clean wellFormed.ordered (by omega) leStop fun notLiteral => by
      rw [literal] at notLiteral
      cases notLiteral
  · rw [around.marksIn_eq wellFormed.ordered leStop, markIn?, mark?_of_isLiteral literal,
      ite_self]
    rfl

/-- A step leads from a border to a later one, and, unless it is silent, writes the marks
between them. -/
theorem exists_step (emit : Bool) :
    ∃ written next, state.step emit = written.goto next ∧ state.position < next ∧
      next ≤ state.limit ∧ Border source units next ∧
      Writes state (if emit then marksIn units state.position next else []) written := by
  have ordered := wellFormed.ordered
  unfold step
  cases found : state.currentUnit? with
  | none =>
      refine ⟨state, state.limit, rfl, inside, Nat.le_refl _, placed.atLimit, ?_⟩
      have noMarks : marksIn units state.position state.limit = [] := by
        apply ordered.marksIn_eq_nil_of_stop_le
        intro sourceUnit member
        simpa using List.find?_eq_none.mp found sourceUnit (placed.units_eq ▸ member)
      rw [noMarks, ite_self]
      exact .refl state
  | some current =>
      unfold currentUnit? at found
      rw [placed.units_eq] at found
      obtain ⟨passed, ahead, around⟩ := exists_around found
      have member := around.mem
      have nonempty := ordered.nonempty current member
      have behind := around.lt_stop
      simp only
      split
      · -- the gap before the current unit
        rename_i gap
        have nextEq : max (min current.start state.limit) (state.position + 1) =
            min current.start state.limit := by omega
        refine ⟨state, min current.start state.limit, by rw [nextEq], by omega, by omega, ?_, ?_⟩
        · by_cases limited : state.limit ≤ current.start
          · rw [Nat.min_eq_right limited]
            exact placed.atLimit
          · rw [Nat.min_eq_left (by omega)]
            refine ⟨(wellFormed.boundaries current member).1,
              around.clean ordered (by omega) (by omega) fun _ => .inl (Nat.le_refl _)⟩
        · have noMarks : marksIn units state.position (min current.start state.limit) = [] := by
            rw [around.marksIn_eq ordered (by omega), markIn?, if_neg (by omega)]
            rfl
          rw [noMarks, ite_self]
          exact .refl state
      · rename_i reached
        cases content : current.content with
        | text text isLiteral =>
            cases isLiteral with
            | true =>
                obtain ⟨char, charEq, leLimit, border, noMarks⟩ :=
                  read_char wellFormed placed inside around (by rw [isLiteral, content])
                have size := char.utf8Size_pos
                simp only [charEq]
                refine ⟨_, _, rfl, by omega, leLimit, border, ?_⟩
                rw [noMarks, ite_self]
                split
                · exact writes_pushText state char.toString
                · exact .refl state
            | false =>
                obtain ⟨_, leLimit, border, marks⟩ := read_whole wellFormed placed inside around
                  (by rw [isLiteral, content]) reached
                simp only
                refine ⟨_, _, rfl, behind, leLimit, border, ?_⟩
                rw [marks, mark?, content, Option.toList_none, ite_self]
                split
                · exact writes_pushText state text
                · exact .refl state
        | opening token =>
            exact exists_pass wellFormed placed inside around (.inl content) reached emit
        | closing token =>
            exact exists_pass wellFormed placed inside around (.inr (.inl content)) reached emit
        | leaf token =>
            exact exists_pass wellFormed placed inside around (.inr (.inr content)) reached emit

end Step

end InlineState

end WikiPress
