import WikiPress.Inline.SourceUnit
import WikiPress.Page

/-!
# Tokens of running text

A cursor walks over the units of a run and writes tokens.  At every position the
rules are asked first, in order: a rule may claim the source that begins there,
write tokens for it and move the cursor behind it.  Where no rule does, the cursor
passes over the unit that it is at, or over one character inside literal text.

A rule is given the tokenizer itself, so that it can look ahead and read a part
of the run on its own; it may do so as often as the run has bytes, each time
inside the last.
-/

namespace WikiPress

/-- A cursor in a run, with the tokens written so far. -/
structure InlineState where
  /-- The whole text, in which positions count. -/
  source : String
  position : Nat
  /-- The end of what is being read. -/
  limit : Nat
  pages : PageSet
  /-- The number of links that are open. -/
  linkLevel : Nat := 0
  /-- The tokens, the last first. -/
  tokens : List Token := []
  /-- Text that will become a token. -/
  pending : String := ""
  /-- The units of the run, in order. -/
  units : List SourceUnit

namespace InlineState

/-- Text that is pending becomes a token. -/
def flush (state : InlineState) : InlineState :=
  if state.pending.isEmpty then state
  else { state with tokens := Token.ofText state.pending :: state.tokens, pending := "" }

/-- Write a token. -/
def push (state : InlineState) (token : Token) : InlineState :=
  let flushed := state.flush
  { flushed with tokens := token :: flushed.tokens }

/-- Write text. -/
def pushText (state : InlineState) (text : String) : InlineState :=
  { state with pending := state.pending ++ text }

/-- Move the cursor. -/
def goto (state : InlineState) (position : Nat) : InlineState :=
  { state with position }

/-- The unit that the cursor is at, or in front of. -/
def currentUnit? (state : InlineState) : Option SourceUnit :=
  state.units.find? fun sourceUnit => state.position < sourceUnit.stop

/-- The number of open links behind a token. -/
def linkLevelAfter (linkLevel : Nat) (token : Token) : Nat :=
  match token.kind with
  | .linkOpen => linkLevel + 1
  | .linkClose => linkLevel - 1
  | _ => linkLevel

/-- Write the token of a unit and pass over the unit. -/
def passToken (state : InlineState) (emit : Bool) (token : Token) (stop : Nat) : InlineState :=
  if emit then
    ({ state with linkLevel := linkLevelAfter state.linkLevel token }.push token).goto stop
  else
    state.goto stop

/-- Pass over the unit at the cursor, or over one character of it if it is literal
text.  Source that belongs to no unit is passed over up to the next unit.  Nothing
is written unless `emit` says so. -/
def step (state : InlineState) (emit : Bool) : InlineState :=
  match state.currentUnit? with
  | none => state.goto state.limit
  | some sourceUnit =>
    if state.position < sourceUnit.start then
      state.goto (max (min sourceUnit.start state.limit) (state.position + 1))
    else
      match sourceUnit.content with
      | .text _ true =>
        match Text.charAt? state.source state.position with
        | some char =>
          let written := if emit then state.pushText char.toString else state
          written.goto (state.position + char.utf8Size)
        | none => state.goto sourceUnit.stop
      | .text content false =>
        let written :=
          if emit && state.position = sourceUnit.start then state.pushText content else state
        written.goto sourceUnit.stop
      | .opening token => state.passToken emit token sourceUnit.stop
      | .closing token => state.passToken emit token sourceUnit.stop
      | .leaf token => state.passToken emit token sourceUnit.stop

/-- The number of elements that are open behind units, if none of them closes one
that they have not opened and none crosses the borders of a range.  Literal text
may cross them. -/
def depthBehind? (start stop : Nat) : Nat → List SourceUnit → Option Nat
  | depth, [] => some depth
  | depth, sourceUnit :: rest =>
    if stop ≤ sourceUnit.start then
      some depth
    else if sourceUnit.start < start || stop < sourceUnit.stop then
      if sourceUnit.isLiteral then depthBehind? start stop depth rest else none
    else
      match sourceUnit.content with
      | .opening _ => depthBehind? start stop (depth + 1) rest
      | .closing _ => if depth = 0 then none else depthBehind? start stop (depth - 1) rest
      | _ => depthBehind? start stop depth rest

/-- Whether a range of the source can be replaced as a whole: every element that
is opened in it is closed in it, and no unit but literal text crosses its borders. -/
def isBalanced (state : InlineState) (start stop : Nat) : Bool :=
  depthBehind? start stop 0 (state.units.dropWhile fun sourceUnit => sourceUnit.stop ≤ start)
    == some 0

end InlineState

/-- What a rule answers: whether it claims the source at the cursor, and the
state. -/
structure InlineRule.Attempt where
  isMatch : Bool
  state : InlineState

/-- The tokenizer as rules see it. -/
structure Tokenizer where
  /-- Pass over the next token and write nothing. -/
  skip : InlineState → InlineState
  /-- Read and write tokens up to the limit. -/
  tokenize : InlineState → InlineState

/-- A syntax in running text.  `parse` is asked at a position; with `probe` it only
says whether it would claim the source, and writes nothing. -/
structure InlineRule where
  name : String
  parse : Tokenizer → (probe : Bool) → InlineState → InlineRule.Attempt

namespace InlineRule

/-- Ask rules in order, until one claims the source. -/
def tryAll (tokenizer : Tokenizer) : List InlineRule → InlineState → Attempt
  | [], state => { isMatch := false, state }
  | rule :: rules, state =>
    let attempt := rule.parse tokenizer false state
    if attempt.isMatch then attempt else tryAll tokenizer rules attempt.state

/-- Ask rules in order whether they would claim the source from `start` on, until
one does and moves the cursor. -/
def probeAll (tokenizer : Tokenizer) (start : Nat) : List InlineRule → InlineState → Attempt
  | [], state => { isMatch := false, state }
  | rule :: rules, state =>
    let attempt := rule.parse tokenizer true state
    if attempt.isMatch && start < attempt.state.position then attempt
    else probeAll tokenizer start rules (attempt.state.goto start)

end InlineRule

namespace Tokenizer

/-- Pass over the next token and write nothing. -/
def skipWith (rules : List InlineRule) (inner : Tokenizer) (state : InlineState) : InlineState :=
  if state.position < state.limit then
    let attempt := InlineRule.probeAll inner state.position rules state
    if attempt.isMatch then attempt.state else attempt.state.step false
  else
    state

/-- Read tokens up to the limit, in at most a number of rounds. -/
def tokenizeWith (rules : List InlineRule) (inner : Tokenizer) : Nat → InlineState → InlineState
  | 0, state => state.flush
  | rounds + 1, state =>
    if state.position < state.limit then
      let attempt := InlineRule.tryAll inner rules state
      tokenizeWith rules inner rounds
        (if attempt.isMatch then attempt.state else attempt.state.step true)
    else
      state.flush

/-- The tokenizer with rules, which may call it inside each other up to a depth. -/
def withRules (rules : List InlineRule) : (depth : Nat) → Tokenizer
  | 0 => { skip := id, tokenize := InlineState.flush }
  | depth + 1 => {
      skip := fun state => skipWith rules (withRules rules depth) state
      tokenize := fun state =>
        tokenizeWith rules (withRules rules depth) (state.limit - state.position) state }

end Tokenizer

/-- The tokens of a run of units. -/
def tokenizeRun (source : String) (pages : PageSet) (rules : List InlineRule)
    (units : List SourceUnit) : List Token :=
  match units.head?, units.getLast? with
  | some first, some last =>
    let state : InlineState :=
      { source, position := first.start, limit := last.stop, pages, units }
    ((Tokenizer.withRules rules (last.stop - first.start + 1)).tokenize state).tokens.reverse
  | _, _ => []

end WikiPress
