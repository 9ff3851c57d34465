import WikiPress.Proofs.Inline.EnclosingLinks

/-!
# What is written for a run

A run is written as pieces, each of them text or a token; text that stands side by side
becomes one token.  The pieces of a range are those of the units in it, where literal text is
clipped to the range.  Cut at a clean border, a range is written as its two parts are, one
behind the other.  One step of the cursor writes the pieces that it passes, so that a stretch in
which no rule claims anything is written as its pieces.
-/

namespace WikiPress

/-- What a part of a run is written as. -/
inductive Piece where
  | text (content : String)
  | token (token : Token)

/-- The token of a text; there is none if it is empty. -/
def Token.ofPending (text : String) : List Token :=
  if text.isEmpty then [] else [Token.ofText text]

/-- The tokens of pieces behind pending text: neighbouring texts are one token. -/
def Piece.tokens (pending : String) : List Piece → List Token
  | [] => Token.ofPending pending
  | .text content :: pieces => tokens (pending ++ content) pieces
  | .token written :: pieces => Token.ofPending pending ++ written :: tokens "" pieces

/-! ## Output -/

/-- The tokens that have been written, the last first, and the text that will become a
token. -/
structure Output where
  written : List Token
  pending : String

namespace Output

/-- Text that is pending becomes a token. -/
def flush (output : Output) : Output :=
  ⟨Token.ofPending output.pending ++ output.written, ""⟩

/-- The output with a piece behind it. -/
def add (output : Output) : Piece → Output
  | .text content => { output with pending := output.pending ++ content }
  | .token token => { output.flush with written := token :: output.flush.written }

/-- The output with pieces behind it. -/
def write (output : Output) (pieces : List Piece) : Output :=
  pieces.foldl add output

@[simp]
theorem write_nil (output : Output) : output.write [] = output :=
  rfl

@[simp]
theorem write_cons (output : Output) (piece : Piece) (pieces : List Piece) :
    output.write (piece :: pieces) = (output.add piece).write pieces :=
  rfl

@[simp]
theorem write_append (output : Output) (first second : List Piece) :
    output.write (first ++ second) = (output.write first).write second :=
  List.foldl_append

@[simp]
theorem add_flush (output : Output) (token : Token) :
    output.flush.add (.token token) = output.add (.token token) :=
  rfl

/-- What is written in the end are the tokens of the pieces. -/
@[simp]
theorem reverse_flush_write (output : Output) (pieces : List Piece) :
    (output.write pieces).flush.written.reverse =
      output.written.reverse ++ Piece.tokens output.pending pieces := by
  have reverse_ofPending (text : String) :
      (Token.ofPending text).reverse = Token.ofPending text := by
    unfold Token.ofPending
    split <;> rfl
  induction pieces generalizing output with
  | nil => simp [write_nil, flush, Piece.tokens, reverse_ofPending]
  | cons piece pieces ih =>
      rw [write_cons, ih]
      cases piece with
      | text content => rfl
      | token token => simp [add, flush, Piece.tokens, reverse_ofPending]

end Output

namespace InlineState

/-- What a state has written. -/
def output (state : InlineState) : Output :=
  ⟨state.tokens, state.pending⟩

@[simp]
theorem output_flush (state : InlineState) : state.flush.output = state.output.flush := by
  unfold flush Output.flush Token.ofPending output
  cases empty : state.pending.isEmpty with
  | true => simp [String.isEmpty_iff.mp empty]
  | false => simp

@[simp]
theorem output_push (state : InlineState) (token : Token) :
    (state.push token).output = state.output.add (.token token) := by
  have flushed := output_flush state
  unfold Output.add
  rw [← flushed]
  unfold push output at *
  have noneLeft : state.flush.pending = "" := congrArg Output.pending flushed
  rw [noneLeft]

/-- A state that has written pieces, and nothing is pending, has their tokens. -/
theorem reverse_tokens_eq {before after : InlineState} {pieces : List Piece}
    (outputEq : after.output = (before.output.write pieces).flush) :
    after.tokens.reverse = before.tokens.reverse ++ Piece.tokens before.pending pieces :=
  (congrArg (fun output => output.written.reverse) outputEq).trans
    (Output.reverse_flush_write before.output pieces)

end InlineState

/-! ## Pieces of a range -/

namespace SourceUnit

theorem exists_text_of_isLiteral {sourceUnit : SourceUnit}
    (literal : sourceUnit.isLiteral = true) : ∃ text, sourceUnit.content = .text text true := by
  unfold isLiteral at literal
  split at literal
  · rename_i text isLiteral content
    exact ⟨text, literal ▸ content⟩
  · cases literal

/-- What a unit is written as. -/
def piece (sourceUnit : SourceUnit) : Piece :=
  match sourceUnit.content with
  | .text content _ => .text content
  | .opening token => .token token
  | .closing token => .token token
  | .leaf token => .token token

/-- What a unit is written as in a range: literal text is clipped to it, all else is written if
it lies in the range. -/
def pieceIn? (source : String) (start stop : Nat) (sourceUnit : SourceUnit) : Option Piece :=
  if sourceUnit.isLiteral then
    if max start sourceUnit.start < min stop sourceUnit.stop then
      some (.text (Text.slice source (max start sourceUnit.start) (min stop sourceUnit.stop)))
    else
      none
  else if start ≤ sourceUnit.start ∧ sourceUnit.stop ≤ stop then
    some sourceUnit.piece
  else
    none

/-- What the units in a range are written as. -/
def piecesIn (source : String) (units : List SourceUnit) (start stop : Nat) : List Piece :=
  units.filterMap (pieceIn? source start stop)

@[simp]
theorem piecesIn_append (source : String) (first rest : List SourceUnit) (start stop : Nat) :
    piecesIn source (first ++ rest) start stop =
      piecesIn source first start stop ++ piecesIn source rest start stop :=
  List.filterMap_append

@[simp]
theorem piecesIn_cons (source : String) (sourceUnit : SourceUnit) (rest : List SourceUnit)
    (start stop : Nat) :
    piecesIn source (sourceUnit :: rest) start stop =
      (pieceIn? source start stop sourceUnit).toList ++ piecesIn source rest start stop := by
  unfold piecesIn
  cases piece : pieceIn? source start stop sourceUnit with
  | none => rw [List.filterMap_cons_none piece]; rfl
  | some written => rw [List.filterMap_cons_some piece]; rfl

variable {source : String} {units : List SourceUnit} {sourceUnit : SourceUnit}
  {start middle stop : Nat}

theorem pieceIn?_eq_none (nonempty : sourceUnit.start < sourceUnit.stop)
    (outside : stop ≤ start ∨ stop ≤ sourceUnit.start ∨ sourceUnit.stop ≤ start) :
    pieceIn? source start stop sourceUnit = none := by
  unfold pieceIn?
  split
  · exact if_neg (by omega)
  · exact if_neg (by omega)

theorem Ordered.piecesIn_eq_nil (ordered : Ordered units)
    (outside : ∀ sourceUnit ∈ units,
      stop ≤ start ∨ stop ≤ sourceUnit.start ∨ sourceUnit.stop ≤ start) :
    piecesIn source units start stop = [] := by
  unfold piecesIn
  rw [List.filterMap_eq_nil_iff]
  intro sourceUnit member
  exact pieceIn?_eq_none (ordered.nonempty sourceUnit member) (outside sourceUnit member)

theorem Ordered.piecesIn_self (ordered : Ordered units) (position : Nat) :
    piecesIn source units position position = [] :=
  ordered.piecesIn_eq_nil fun _ _ => .inl (Nat.le_refl position)

/-- The pieces up to a position that is not behind the current unit are at most its own. -/
theorem Around.piecesIn_eq {position : Nat} {passed ahead : List SourceUnit}
    {current : SourceUnit} (around : Around units position passed current ahead)
    (ordered : Ordered units) {next : Nat} (leStop : next ≤ current.stop) :
    piecesIn source units position next = (pieceIn? source position next current).toList := by
  have order := around.units_eq ▸ ordered
  have passedNone : piecesIn source passed position next = [] :=
    order.append_left.piecesIn_eq_nil fun sourceUnit member =>
      .inr (.inr (around.passed_stop sourceUnit member))
  have aheadNone : piecesIn source ahead position next = [] :=
    order.append_right.of_cons.piecesIn_eq_nil fun sourceUnit member =>
      .inr (.inl (Nat.le_trans leStop (around.ahead_start ordered sourceUnit member)))
  rw [around.units_eq, piecesIn_append, piecesIn_cons, passedNone, aheadNone]
  simp

/-- There are no pieces in the gap before the current unit. -/
theorem Around.piecesIn_gap {position : Nat} {passed ahead : List SourceUnit}
    {current : SourceUnit} (around : Around units position passed current ahead)
    (ordered : Ordered units) {next : Nat} (leStart : next ≤ current.start) :
    piecesIn source units position next = [] := by
  have nonempty := ordered.nonempty current around.mem
  rw [around.piecesIn_eq ordered (Nat.le_trans leStart (Nat.le_of_lt nonempty)),
    pieceIn?_eq_none nonempty (.inr (.inl leStart))]
  rfl

/-- A character of literal text is a piece of its own. -/
theorem Around.piecesIn_char {position : Nat} {passed ahead : List SourceUnit}
    {current : SourceUnit} (around : Around units position passed current ahead)
    (wellFormed : WellFormed source units) (literal : current.isLiteral = true)
    (reached : ¬ position < current.start) (boundary : Text.isBoundary source position = true)
    {char : Char} (found : Text.charAt? source position = some char) :
    piecesIn source units position (position + char.utf8Size) = [.text char.toString] := by
  have leStop := Text.stop_le_of_charAt? (wellFormed.boundaries current around.mem).2
    around.lt_stop found
  have size := char.utf8Size_pos
  rw [around.piecesIn_eq wellFormed.ordered leStop, pieceIn?, if_pos literal,
    Nat.max_eq_left (by omega), Nat.min_eq_left leStop, if_pos (by omega),
    Text.slice_of_charAt? boundary found]
  rfl

/-- The text between two boundaries is what stands in front of a boundary between them, and
behind it. -/
theorem slice_split (atStart : Text.isBoundary source start = true)
    (atMiddle : Text.isBoundary source middle = true) (atStop : Text.isBoundary source stop = true)
    (startLe : start ≤ middle) (leStop : middle ≤ stop) :
    Text.slice source start middle ++ Text.slice source middle stop =
      Text.slice source start stop := by
  obtain ⟨before, behind, splits⟩ := Text.isBoundary_iff.mp atStart
  obtain ⟨first, rest, rfl, rfl⟩ := splits.exists_middle atMiddle startLe
  obtain ⟨second, final, rfl, rfl⟩ := splits.advance.exists_middle atStop leStop
  have whole : Text.SplitsAt source start before ((first ++ second) ++ final) := by
    rwa [List.append_assoc]
  rw [splits.slice_eq, splits.advance.slice_eq, Nat.add_assoc, ← Text.byteLength_append,
    whole.slice_eq, String.ofList_append]

/-- A unit that lies before a border, or behind it, is written in one of the two ranges. -/
theorem pieceIn?_split (source : String) (nonempty : sourceUnit.start < sourceUnit.stop)
    (startLe : start ≤ middle) (leStop : middle ≤ stop) :
    (sourceUnit.stop ≤ middle → pieceIn? source middle stop sourceUnit = none ∧
      pieceIn? source start middle sourceUnit = pieceIn? source start stop sourceUnit) ∧
    (middle ≤ sourceUnit.start → pieceIn? source start middle sourceUnit = none ∧
      pieceIn? source middle stop sourceUnit = pieceIn? source start stop sourceUnit) := by
  constructor
  · intro before
    refine ⟨pieceIn?_eq_none nonempty (.inr (.inr before)), ?_⟩
    unfold pieceIn?
    rw [Nat.min_eq_right before, Nat.min_eq_right (Nat.le_trans before leStop)]
    simp only [before, Nat.le_trans before leStop]
  · intro behind
    refine ⟨pieceIn?_eq_none nonempty (.inr (.inl behind)), ?_⟩
    unfold pieceIn?
    rw [Nat.max_eq_right behind, Nat.max_eq_right (Nat.le_trans startLe behind)]
    simp only [behind, Nat.le_trans startLe behind]

/-- Literal text on both sides of a position is written in two parts. -/
theorem write_pieceIn?_split (literal : sourceUnit.isLiteral = true)
    (boundaries : Text.isBoundary source sourceUnit.start = true ∧
      Text.isBoundary source sourceUnit.stop = true)
    (atStart : Text.isBoundary source start = true)
    (atMiddle : Text.isBoundary source middle = true) (atStop : Text.isBoundary source stop = true)
    (later : start < middle) (before : middle < stop)
    (inside : sourceUnit.start < middle ∧ middle < sourceUnit.stop) (output : Output) :
    output.write (pieceIn? source start stop sourceUnit).toList =
      (output.write (pieceIn? source start middle sourceUnit).toList).write
        (pieceIn? source middle stop sourceUnit).toList := by
  have fromStart : Text.isBoundary source (max start sourceUnit.start) = true := by
    rcases Nat.le_total start sourceUnit.start with le | le
    · rw [Nat.max_eq_right le]
      exact boundaries.1
    · rw [Nat.max_eq_left le]
      exact atStart
  have toStop : Text.isBoundary source (min stop sourceUnit.stop) = true := by
    rcases Nat.le_total stop sourceUnit.stop with le | le
    · rw [Nat.min_eq_left le]
      exact atStop
    · rw [Nat.min_eq_right le]
      exact boundaries.2
  have clipped := slice_split fromStart atMiddle toStop (by omega) (by omega)
  have middleStart : max middle sourceUnit.start = middle := by omega
  have middleStop : min middle sourceUnit.stop = middle := by omega
  unfold pieceIn?
  rw [if_pos literal, if_pos literal, if_pos literal, middleStart, middleStop,
    if_pos (by omega), if_pos (by omega), if_pos (by omega), ← clipped]
  simp [Output.write, Output.add, String.append_assoc]

theorem Ordered.write_piecesIn_split (ordered : Ordered units)
    (boundaries : ∀ sourceUnit ∈ units, Text.isBoundary source sourceUnit.start = true ∧
      Text.isBoundary source sourceUnit.stop = true)
    (atStart : Text.isBoundary source start = true) (border : Border source units middle)
    (atStop : Text.isBoundary source stop = true) (later : start < middle)
    (before : middle < stop) (output : Output) :
    output.write (piecesIn source units start stop) =
      (output.write (piecesIn source units start middle)).write
        (piecesIn source units middle stop) := by
  have startLe := Nat.le_of_lt later
  have leStop := Nat.le_of_lt before
  induction units generalizing output with
  | nil => rfl
  | cons sourceUnit rest ih =>
      have nonempty := ordered.nonempty sourceUnit List.mem_cons_self
      have restSplit (output : Output) := ih ordered.of_cons
        (fun other member => boundaries other (List.mem_cons_of_mem sourceUnit member))
        ⟨border.boundary, fun other member =>
          border.clean other (List.mem_cons_of_mem sourceUnit member)⟩ output
      have noneBefore (stopBehind : middle ≤ sourceUnit.stop) :
          piecesIn source rest start middle = [] :=
        ordered.of_cons.piecesIn_eq_nil fun other member =>
          .inr (.inl (Nat.le_trans stopBehind (ordered.stop_le_start member)))
      obtain ⟨ifBefore, ifBehind⟩ := pieceIn?_split source nonempty startLe leStop
      rw [piecesIn_cons, piecesIn_cons, piecesIn_cons]
      by_cases stopLe : sourceUnit.stop ≤ middle
      · obtain ⟨noneBehind, same⟩ := ifBefore stopLe
        rw [noneBehind, same]
        simp only [Option.toList_none, List.nil_append, Output.write_append]
        exact restSplit _
      · rw [noneBefore (Nat.le_of_not_le stopLe), List.append_nil]
        by_cases leStart : middle ≤ sourceUnit.start
        · obtain ⟨noneYet, same⟩ := ifBehind leStart
          rw [noneYet, same]
          simp only [Option.toList_none, Output.write_nil, Output.write_append]
          rw [restSplit, noneBefore (Nat.le_of_not_le stopLe), Output.write_nil]
        · -- only literal text lies on both sides
          have literal : sourceUnit.isLiteral = true := by
            by_contra notLiteral
            exact border.clean sourceUnit List.mem_cons_self (by simpa using notLiteral)
              (by omega)
          rw [Output.write_append, Output.write_append, restSplit,
            noneBefore (Nat.le_of_not_le stopLe), Output.write_nil,
            write_pieceIn?_split literal (boundaries sourceUnit List.mem_cons_self) atStart
              border.boundary atStop later before (by omega)]

/-- At a clean border, a range is cut into two without losing anything. -/
theorem write_piecesIn_split (wellFormed : WellFormed source units)
    (atStart : Text.isBoundary source start = true) (border : Border source units middle)
    (atStop : Text.isBoundary source stop = true) (startLe : start ≤ middle)
    (leStop : middle ≤ stop) (output : Output) :
    output.write (piecesIn source units start stop) =
      (output.write (piecesIn source units start middle)).write
        (piecesIn source units middle stop) := by
  have ordered := wellFormed.ordered
  rcases Nat.eq_or_lt_of_le startLe with rfl | later
  · rw [ordered.piecesIn_self, Output.write_nil]
  · rcases Nat.eq_or_lt_of_le leStop with rfl | before
    · rw [ordered.piecesIn_self, Output.write_nil]
    · exact ordered.write_piecesIn_split wellFormed.boundaries atStart border atStop later before
        output

end SourceUnit

open SourceUnit

/-! ## Steps -/

namespace InlineState

section Step

variable {source : String} {units : List SourceUnit} (wellFormed : WellFormed source units)
  {state : InlineState} (placed : Placed source units state)
  (inside : state.position < state.limit)
include wellFormed placed inside

/-- A step leads from a border to a later one, and stays in its run. -/
theorem placed_step : Placed source units (state.step true) ∧
    (state.step true).limit = state.limit ∧ state.position < (state.step true).position ∧
      (state.step true).position ≤ state.limit := by
  obtain ⟨written, next, stepEq, later, leLimit, border, writes⟩ :=
    exists_step wellFormed placed inside true
  have sameRun := writes.sameRun
  rw [stepEq]
  exact ⟨⟨sameRun.source_eq.trans placed.source_eq, sameRun.units_eq.trans placed.units_eq, border,
    sameRun.limit_eq ▸ placed.atLimit⟩, sameRun.limit_eq, later, leLimit⟩

/-- A unit that is read as a whole is what is written up to its end. -/
theorem piecesIn_whole {passed ahead : List SourceUnit} {current : SourceUnit}
    (around : Around units state.position passed current ahead)
    (notLiteral : current.isLiteral = false) (reached : ¬ state.position < current.start) :
    piecesIn source units state.position current.stop = [current.piece] := by
  obtain ⟨startEq, _⟩ := read_whole wellFormed placed inside around notLiteral reached
  rw [around.piecesIn_eq wellFormed.ordered (Nat.le_refl _), pieceIn?,
    if_neg (by simp [notLiteral]), if_pos ⟨Nat.le_of_eq startEq, Nat.le_refl _⟩]
  rfl

theorem output_passToken {passed ahead : List SourceUnit} {current : SourceUnit}
    (around : Around units state.position passed current ahead) {token : Token}
    (content : current.content = .opening token ∨ current.content = .closing token ∨
      current.content = .leaf token)
    (reached : ¬ state.position < current.start) :
    (state.passToken true token current.stop).output =
      state.output.write (piecesIn source units state.position current.stop) := by
  have notLiteral : current.isLiteral = false := by
    unfold isLiteral
    rcases content with content | content | content <;> rw [content]
  have pieceEq : current.piece = .token token := by
    unfold piece
    rcases content with content | content | content <;> rw [content]
  rw [piecesIn_whole wellFormed placed inside around notLiteral reached, pieceEq]
  exact output_push { state with linkLevel := linkLevelAfter state.linkLevel token } token

/-- A step writes the pieces that it passes. -/
theorem output_step : (state.step true).output =
    state.output.write (piecesIn source units state.position (state.step true).position) := by
  have ordered := wellFormed.ordered
  unfold step
  cases found : state.currentUnit? with
  | none =>
      have noPieces : piecesIn source units state.position state.limit = [] := by
        apply ordered.piecesIn_eq_nil
        intro sourceUnit member
        have passed : sourceUnit.stop ≤ state.position := by
          simpa using List.find?_eq_none.mp found sourceUnit (placed.units_eq ▸ member)
        exact .inr (.inr passed)
      change state.output = state.output.write (piecesIn source units state.position state.limit)
      rw [noPieces, Output.write_nil]
  | some current =>
      unfold currentUnit? at found
      rw [placed.units_eq] at found
      obtain ⟨passed, ahead, around⟩ := exists_around found
      simp only
      split
      · -- the gap before the current unit
        change state.output = state.output.write (piecesIn source units state.position
          (max (min current.start state.limit) (state.position + 1)))
        rw [around.piecesIn_gap ordered (by omega), Output.write_nil]
      · rename_i reached
        cases content : current.content with
        | text text isLiteral =>
            cases isLiteral with
            | true =>
                have literal : current.isLiteral = true := by rw [isLiteral, content]
                obtain ⟨char, charEq, _⟩ := read_char wellFormed placed inside around literal
                have onePiece := around.piecesIn_char wellFormed literal reached
                  placed.atPosition.boundary (placed.source_eq ▸ charEq)
                simp only [charEq]
                change (state.pushText char.toString).output = state.output.write
                  (piecesIn source units state.position (state.position + char.utf8Size))
                rw [onePiece]
                rfl
            | false =>
                have notLiteral : current.isLiteral = false := by rw [isLiteral, content]
                have startEq := (read_whole wellFormed placed inside around notLiteral reached).1
                have pieceEq : current.piece = .text text := by rw [piece, content]
                simp only [startEq, Bool.true_and, decide_true, if_true]
                change (state.pushText text).output = state.output.write
                  (piecesIn source units current.start current.stop)
                rw [← startEq, piecesIn_whole wellFormed placed inside around notLiteral reached,
                  pieceEq]
                rfl
        | opening token =>
            exact output_passToken wellFormed placed inside around (.inl content) reached
        | closing token =>
            exact output_passToken wellFormed placed inside around (.inr (.inl content)) reached
        | leaf token =>
            exact output_passToken wellFormed placed inside around (.inr (.inr content)) reached

end Step

end InlineState

open InlineState

/-- At the limit, flushing writes what is left, which is nothing. -/
theorem InlineState.output_flush_at {source : String} {units : List SourceUnit}
    (ordered : Ordered units) {state : InlineState} {limit : Nat}
    (atLimit : state.position = limit) :
    state.flush.output =
      (state.output.write (piecesIn source units state.position limit)).flush := by
  rw [atLimit, ordered.piecesIn_self, Output.write_nil, output_flush]

namespace Tokenizer

/-- Where no rule claims anything, a part of a run is written as its pieces. -/
theorem output_tokenizeWith_of_refused {source : String} {units : List SourceUnit}
    (wellFormed : WellFormed source units) {rules : List InlineRule} {inner : Tokenizer}
    (Calm : InlineState → Prop)
    (refused : ∀ state, Calm state → state.position < state.limit →
      InlineRule.tryAll inner rules state = { isMatch := false, state })
    (stays : ∀ state, Calm state → state.position < state.limit → Calm (state.step true))
    (rounds : Nat) {state : InlineState} (calm : Calm state) (placed : Placed source units state)
    (inOrder : state.position ≤ state.limit) (enough : state.limit ≤ state.position + rounds) :
    (tokenizeWith rules inner rounds state).output =
      (state.output.write (piecesIn source units state.position state.limit)).flush := by
  have ordered := wellFormed.ordered
  induction rounds generalizing state with
  | zero => exact output_flush_at ordered (Nat.le_antisymm inOrder enough)
  | succ rounds ih =>
      unfold tokenizeWith
      by_cases inside : state.position < state.limit
      · obtain ⟨next, limitEq, later, leLimit⟩ := placed_step wellFormed placed inside
        have rest := ih (stays state calm inside) next (limitEq ▸ leLimit) (by omega)
        rw [if_pos inside, refused state calm inside]
        simp only [Bool.false_eq_true, if_false]
        rw [rest, output_step wellFormed placed inside, limitEq,
          ← write_piecesIn_split wellFormed placed.atPosition.boundary next.atPosition
            placed.atLimit.boundary (Nat.le_of_lt later) leLimit]
      · rw [if_neg inside]
        exact output_flush_at ordered (Nat.le_antisymm inOrder (Nat.le_of_not_lt inside))

end Tokenizer

end WikiPress
