import WikiPress.Proofs.Inline.Conservation

/-!
# Wiki links in plain text

A run of plain text can be read without a cursor, character by character.  Behind two opening
brackets, the text up to the first two closing ones is the content of a link unless it is empty;
every other character is text.  The content is cut at its first pipe that no backslash escapes.
The tokenizer does what this scanner does: among literal units its search passes over single
characters, everything is balanced, and in a label no other link is read.
-/

namespace WikiPress

open SourceUnit (WellFormed Border Stretch Clean piecesIn runStart runStop)
open InlineState (Placed CountsFrom Draws)
open Tokenizer (withRules)

/-! ## The scanner -/

namespace PlainText

/-- The characters in front of the first two closing brackets, and those behind these. -/
def untilBrackets? : List Char → Option (List Char × List Char)
  | [] => none
  | char :: rest =>
    if char = ']' ∧ rest.head? = some ']' then
      some ([], rest.tail)
    else
      (untilBrackets? rest).map fun (content, behind) => (char :: content, behind)

/-- The characters in front of the first pipe that no backslash escapes, and those behind it, if
there is one. -/
def atPipe (escaping : Bool) : List Char → List Char × Option (List Char)
  | [] => ([], none)
  | char :: rest =>
    if char = '|' ∧ escaping = false then
      ([], some rest)
    else
      let (target, label) := atPipe (char == '\\' && !escaping) rest
      (char :: target, label)

/-- The content of the link at the start of a text, which is not empty, and what stands behind
the link. -/
def linkAt? : List Char → Option (List Char × List Char)
  | '[' :: '[' :: rest => (untilBrackets? rest).filter fun (content, _) => !content.isEmpty
  | _ => none

/-- What a link of a content is written as: the text behind the pipe, or the destination, between
its two tokens. -/
def linkPieces (pages : PageSet) (content : List Char) : List Piece :=
  let (targetChars, label) := atPipe false content
  let target := WikiLink.Target.ofText (String.ofList targetChars)
  [.token (WikiLink.openingToken target pages),
    .text ((label.map String.ofList).getD target.destination),
    .token WikiLink.closingToken]

theorem length_of_untilBrackets? {chars content behind : List Char}
    (found : untilBrackets? chars = some (content, behind)) : behind.length < chars.length := by
  induction chars generalizing content with
  | nil => cases found
  | cons char rest ih =>
      unfold untilBrackets? at found
      split at found
      · cases found
        simp only [List.length_tail, List.length_cons]
        omega
      · obtain ⟨⟨later, _⟩, foundLater, same⟩ := Option.map_eq_some_iff.mp found
        cases same
        have shorter := ih foundLater
        rw [List.length_cons]
        omega

theorem length_of_linkAt? {chars content behind : List Char}
    (found : linkAt? chars = some (content, behind)) : behind.length < chars.length := by
  unfold linkAt? at found
  split at found
  · have shorter := length_of_untilBrackets? (Option.filter_eq_some_iff.mp found).1
    simp only [List.length_cons]
    omega
  · cases found

/-- What a plain text is written as. -/
def scan (pages : PageSet) (chars : List Char) : List Piece :=
  match chars with
  | [] => []
  | char :: rest =>
    match _found : linkAt? (char :: rest) with
    | some (content, behind) => linkPieces pages content ++ scan pages behind
    | none => .text char.toString :: scan pages rest
termination_by chars.length
decreasing_by
  · exact length_of_linkAt? _found
  · exact Nat.lt_succ_self _

theorem scan_of_linkAt? {pages : PageSet} {chars content behind : List Char}
    (found : linkAt? chars = some (content, behind)) :
    scan pages chars = linkPieces pages content ++ scan pages behind := by
  cases chars with
  | nil => cases found
  | cons char rest =>
      rw [scan]
      split
      · rename_i other otherBehind otherFound
        cases found.symm.trans otherFound
        rfl
      · rename_i noLink
        cases found.symm.trans noLink

theorem scan_of_linkAt?_eq_none {pages : PageSet} {char : Char} {rest : List Char}
    (noLink : linkAt? (char :: rest) = none) :
    scan pages (char :: rest) = .text char.toString :: scan pages rest := by
  rw [scan]
  split
  · rename_i content behind found
    cases noLink.symm.trans found
  · rfl

/-- Up to the brackets stands the content. -/
theorem of_untilBrackets? {chars content behind : List Char}
    (found : untilBrackets? chars = some (content, behind)) :
    chars = content ++ ']' :: ']' :: behind := by
  induction chars generalizing content with
  | nil => cases found
  | cons char rest ih =>
      unfold untilBrackets? at found
      split at found
      · rename_i brackets
        obtain ⟨rfl, second⟩ := brackets
        obtain ⟨later, rfl⟩ := List.head?_eq_some_iff.mp second
        cases found
        rfl
      · obtain ⟨⟨later, _⟩, foundLater, same⟩ := Option.map_eq_some_iff.mp found
        cases same
        rw [ih foundLater]
        rfl

/-- What stands at the start of a text where a link does. -/
theorem of_linkAt? {chars content behind : List Char}
    (found : linkAt? chars = some (content, behind)) :
    ∃ rest, chars = '[' :: '[' :: rest ∧ untilBrackets? rest = some (content, behind) ∧
      content ≠ [] := by
  unfold linkAt? at found
  split at found
  · rename_i rest
    obtain ⟨untilFound, nonempty⟩ := Option.filter_eq_some_iff.mp found
    exact ⟨rest, rfl, untilFound, by simpa using nonempty⟩
  · cases found

/-- How a text with a link at its start is made up. -/
theorem eq_of_linkAt? {chars content behind : List Char}
    (found : linkAt? chars = some (content, behind)) :
    chars = '[' :: '[' :: (content ++ ']' :: ']' :: behind) := by
  obtain ⟨rest, rfl, untilFound, _⟩ := of_linkAt? found
  rw [of_untilBrackets? untilFound]

theorem byteLength_of_linkAt? {chars content behind : List Char}
    (found : linkAt? chars = some (content, behind)) :
    Text.byteLength chars = 4 + Text.byteLength content + Text.byteLength behind ∧
      0 < Text.byteLength content := by
  have opening : ('[' : Char).utf8Size = 1 := rfl
  have closing : (']' : Char).utf8Size = 1 := rfl
  constructor
  · rw [eq_of_linkAt? found]
    simp only [Text.byteLength_cons, Text.byteLength_append, opening, closing]
    omega
  · obtain ⟨_, _, _, nonempty⟩ := of_linkAt? found
    obtain ⟨char, rest, rfl⟩ := List.exists_cons_of_ne_nil nonempty
    have size := char.utf8Size_pos
    rw [Text.byteLength_cons]
    omega

/-- The content of a link stands behind its opening brackets. -/
theorem splitsAt_content {source : String} {position : Nat}
    {before chars tail content behind : List Char}
    (splits : Text.SplitsAt source position before (chars ++ tail))
    (found : linkAt? chars = some (content, behind)) :
    Text.SplitsAt source (position + 2) (before ++ ['['] ++ ['['])
      (content ++ (']' :: ']' :: behind ++ tail)) := by
  have opening : ('[' : Char).utf8Size = 1 := rfl
  rw [eq_of_linkAt? found] at splits
  have behindBrackets := (splits.succ opening).succ opening
  simpa using behindBrackets

/-- A content is cut at its first pipe as it is at the first of all. -/
theorem cut_eq_atPipe (escaping : Bool) (chars : List Char) :
    Pipe.cut (some 1) escaping chars =
      (atPipe escaping chars).1 :: (atPipe escaping chars).2.toList := by
  have whole (escaping : Bool) (chars : List Char) :
      Pipe.cut (some 0) escaping chars = [chars] := by
    induction chars generalizing escaping with
    | nil => rfl
    | cons char chars ih =>
        unfold Pipe.cut
        simp [ih, Pipe.consFirst]
  induction chars generalizing escaping with
  | nil => rfl
  | cons char chars ih =>
      unfold Pipe.cut atPipe
      by_cases backslash : char = '\\'
      · subst backslash
        simp [ih, Pipe.consFirst]
      · by_cases pipe : char = '|' ∧ escaping = false
        · obtain ⟨rfl, rfl⟩ := pipe
          simp [whole]
        · have noCut : (decide (char = '|') && !escaping && (some 1 != some 0)) = false := by
            simpa using pipe
          have noEscape : (char == '\\' && !escaping) = false := by simp [backslash]
          rw [if_neg backslash, if_neg (by simp [noCut]), if_neg pipe, noEscape, ih]
          rfl

theorem append_atPipe (escaping : Bool) (chars : List Char) :
    chars = (atPipe escaping chars).1 ++
      ((atPipe escaping chars).2.map fun label => '|' :: label).getD [] := by
  induction chars generalizing escaping with
  | nil => rfl
  | cons char chars ih =>
      unfold atPipe
      split
      · rename_i pipe
        obtain ⟨rfl, _⟩ := pipe
        rfl
      · exact congrArg (char :: ·) (ih _)

/-- Where the target and the label lie in a content. -/
theorem ranges_eq_atPipe (content : List Char) (offset : Nat) {target : List Char}
    {label : Option (List Char)} (parts : atPipe false content = (target, label)) :
    WikiLink.ranges (String.ofList content) offset =
      (⟨offset, offset + Text.byteLength target⟩,
        label.map fun label => ⟨offset + (Text.byteLength target + 1),
          offset + (Text.byteLength target + 1) + Text.byteLength label⟩) := by
  have segments : Pipe.segments (some 2) content = target :: label.toList := by
    have cut := cut_eq_atPipe false content
    rw [parts] at cut
    exact cut
  unfold WikiLink.ranges Pipe.ranges
  rw [String.toList_ofList, segments]
  cases label with
  | none => simp [Pipe.rangesFrom]
  | some label => simp [Pipe.rangesFrom, Nat.add_assoc]

theorem hasBareNewline_eq_false {chars : List Char} (noBreak : '\n' ∉ chars) (escaped : Bool) :
    WikiLink.hasBareNewline escaped chars = false := by
  induction chars generalizing escaped with
  | nil => rfl
  | cons char chars ih =>
      rw [List.mem_cons, not_or] at noBreak
      obtain ⟨other, noBreak⟩ := noBreak
      have notBreak : (char == '\n') = false := by simpa using Ne.symm other
      rw [WikiLink.hasBareNewline, notBreak, ih noBreak]
      rfl

end PlainText

/-! ## Plain runs -/

/-- A run of literal text without gaps. -/
structure IsPlain (source : String) (units : List SourceUnit) : Prop
    extends WellFormed source units where
  isLiteral : ∀ sourceUnit ∈ units, sourceUnit.isLiteral = true
  contiguous : units.IsChain fun first second => first.stop = second.start

namespace IsPlain

variable {source : String} {units : List SourceUnit} (plain : IsPlain source units)
include plain

theorem clean (position : Nat) : Clean units position := by
  intro sourceUnit member notLiteral
  rw [plain.isLiteral sourceUnit member] at notLiteral
  cases notLiteral

theorem marksIn_eq_nil (origin position : Nat) : SourceUnit.marksIn units origin position = [] := by
  unfold SourceUnit.marksIn
  rw [List.filterMap_eq_nil_iff]
  intro sourceUnit member
  rw [SourceUnit.markIn?, SourceUnit.mark?_of_isLiteral (plain.isLiteral sourceUnit member),
    ite_self]

theorem linksSince_eq_zero (origin position : Nat) :
    SourceUnit.linksSince units origin position = 0 := by
  rw [SourceUnit.linksSince, plain.marksIn_eq_nil]
  rfl

theorem stretch {origin limit : Nat} (inOrder : origin ≤ limit) : Stretch units origin limit := by
  refine ⟨inOrder, plain.clean origin, plain.clean limit, ?_⟩
  rw [plain.marksIn_eq_nil]
  rfl

/-- Everything in a plain run is balanced. -/
theorem isBalanced {state : InlineState} (unitsEq : state.units = units) (start stop : Nat) :
    state.isBalanced start stop = true := by
  have depth {rest : List SourceUnit} (literal : ∀ sourceUnit ∈ rest, sourceUnit.isLiteral = true)
      (depth : Nat) : InlineState.depthBehind? start stop depth rest = some depth := by
    induction rest with
    | nil => rfl
    | cons sourceUnit rest ih =>
        obtain ⟨first, behind⟩ := List.forall_mem_cons.mp literal
        obtain ⟨text, content⟩ := SourceUnit.exists_text_of_isLiteral first
        simp [InlineState.depthBehind?, first, content, ih behind]
  unfold InlineState.isBalanced
  rw [unitsEq, depth, beq_self_eq_true]
  intro sourceUnit member
  exact plain.isLiteral sourceUnit (List.dropWhile_sublist _ |>.mem member)

/-- At every position of a plain run lies a unit. -/
theorem exists_around {position : Nat} (startLe : runStart units ≤ position)
    (inside : position < runStop units) :
    ∃ passed current ahead, units.find? (fun sourceUnit => position < sourceUnit.stop) =
        some current ∧
      SourceUnit.Around units position passed current ahead ∧ ¬ position < current.start := by
  -- the first unit that ends behind the position begins where the one before it ends
  have begun {rest : List SourceUnit} {current : SourceUnit}
      (contiguous : rest.IsChain fun first second => first.stop = second.start)
      (headLe : ∀ first, rest.head? = some first → first.start ≤ position)
      (found : rest.find? (fun sourceUnit => position < sourceUnit.stop) = some current) :
      current.start ≤ position := by
    induction rest with
    | nil => cases found
    | cons first rest ih =>
        by_cases behind : position < first.stop
        · rw [List.find?_cons_of_pos (by simpa using behind)] at found
          cases found
          exact headLe current rfl
        · rw [List.find?_cons_of_neg (by simpa using behind)] at found
          refine ih contiguous.tail ?_ found
          intro second head
          obtain ⟨rest, rfl⟩ := List.head?_eq_some_iff.mp head
          have next := (List.isChain_cons_cons.mp contiguous).1
          omega
  cases found : units.find? fun sourceUnit => position < sourceUnit.stop with
  | none =>
      exfalso
      unfold runStop at inside
      cases final : units.getLast? with
      | none =>
          rw [final] at inside
          exact Nat.not_lt_zero position inside
      | some last =>
          rw [final] at inside
          have passed := List.find?_eq_none.mp found last (List.mem_of_getLast? final)
          simp only [decide_eq_true_eq] at passed
          exact passed inside
  | some current =>
      obtain ⟨passed, ahead, around⟩ := SourceUnit.exists_around found
      refine ⟨passed, current, ahead, rfl, around, Nat.not_lt.mpr ?_⟩
      refine begun plain.contiguous ?_ found
      intro first head
      rwa [runStart, head] at startLe

/-- A step passes over one character. -/
theorem step_eq {state : InlineState} (unitsEq : state.units = units)
    (startLe : runStart units ≤ state.position) (inside : state.position < runStop units)
    {char : Char} (found : Text.charAt? state.source state.position = some char) (emit : Bool) :
    state.step emit = (if emit then state.pushText char.toString else state).goto
      (state.position + char.utf8Size) := by
  obtain ⟨_, current, _, currentEq, around, reached⟩ := plain.exists_around startLe inside
  obtain ⟨text, content⟩ :=
    SourceUnit.exists_text_of_isLiteral (plain.isLiteral current around.mem)
  unfold InlineState.step InlineState.currentUnit?
  rw [unitsEq]
  simp only [currentEq, if_neg reached, content, found]

/-- A plain text is written as it stands. -/
theorem write_piecesIn {start : Nat} {before chars tail : List Char}
    (splits : Text.SplitsAt source start before (chars ++ tail))
    (startLe : runStart units ≤ start) (leStop : start + Text.byteLength chars ≤ runStop units)
    (output : Output) :
    output.write (piecesIn source units start (start + Text.byteLength chars)) =
      output.add (.text (String.ofList chars)) := by
  induction chars generalizing start before output with
  | nil =>
      rw [Text.byteLength_nil, Nat.add_zero, plain.ordered.piecesIn_self, Output.write_nil]
      simp [Output.add]
  | cons char chars ih =>
      have size := char.utf8Size_pos
      rw [Text.byteLength_cons, ← Nat.add_assoc] at leStop ⊢
      obtain ⟨_, current, _, _, around, reached⟩ := plain.exists_around startLe (by omega)
      have charEq : Text.charAt? source start = some char := splits.charAt?_eq
      have stopBoundary : Text.isBoundary source
          (start + char.utf8Size + Text.byteLength chars) = true := splits.next.advance.isBoundary
      rw [SourceUnit.write_piecesIn_split plain.toWellFormed splits.isBoundary
          ⟨splits.next.isBoundary, plain.clean _⟩ stopBoundary (Nat.le_add_right _ _)
          (Nat.le_add_right _ _),
        around.piecesIn_char plain.toWellFormed (plain.isLiteral current around.mem) reached
          splits.isBoundary charEq,
        ih splits.next (by omega) leStop]
      have joined : char.toString ++ String.ofList chars = String.ofList (char :: chars) := by
        rw [← List.singleton_append, String.ofList_append]
        rfl
      rw [← joined]
      exact congrArg (Output.mk output.written) String.append_assoc

/-- Skipping passes over one character. -/
theorem skip_eq {state : InlineState} (unitsEq : state.units = units)
    (startLe : runStart units ≤ state.position) (inside : state.position < runStop units)
    (beforeLimit : state.position < state.limit) {char : Char}
    (found : Text.charAt? state.source state.position = some char) (depth : Nat) :
    (withRules [WikiLink.rule] (depth + 1)).skip state =
      state.goto (state.position + char.utf8Size) := by
  change Tokenizer.skipWith _ _ state = _
  unfold Tokenizer.skipWith
  rw [if_pos beforeLimit]
  exact plain.step_eq unitsEq startLe inside found false

end IsPlain

/-- Two ASCII characters are read where a text goes on with them, if there is room. -/
theorem byteAt?_pair_iff {source : String} {position : Nat} {before chars tail : List Char}
    (splits : Text.SplitsAt source position before (chars ++ tail))
    (room : 2 ≤ Text.byteLength chars) {first second : Char} (firstAscii : first.toNat < 128)
    (secondAscii : second.toNat < 128) :
    (Text.byteAt? source position = some first ∧
      Text.byteAt? source (position + 1) = some second) ↔
      ∃ rest, chars = first :: second :: rest := by
  have one {char : Char} (ascii : char.toNat < 128) : char.utf8Size = 1 :=
    Char.utf8Size_eq_one_iff.mpr (Nat.le_of_lt_succ ascii)
  constructor
  · rintro ⟨firstFound, secondFound⟩
    rw [splits.byteAt?_eq_some_iff firstAscii] at firstFound
    cases chars with
    | nil => simp at room
    | cons char chars =>
        obtain rfl : char = first := by simpa using firstFound
        have behind := splits.succ (one firstAscii)
        rw [behind.byteAt?_eq_some_iff secondAscii] at secondFound
        cases chars with
        | nil =>
            rw [Text.byteLength_cons, one firstAscii] at room
            simp at room
        | cons next chars =>
            obtain rfl : next = second := by simpa using secondFound
            exact ⟨chars, rfl⟩
  · rintro ⟨rest, rfl⟩
    exact ⟨splits.byteAt?_eq firstAscii, (splits.succ (one firstAscii)).byteAt?_eq secondAscii⟩

/-- Without room for two brackets, the search ends. -/
theorem WikiLink.findClose_of_limit_le (tokenizer : Tokenizer) {limit : Nat} (fuel : Nat)
    {state : InlineState} (noRoom : limit ≤ state.position + 1) :
    WikiLink.findClose tokenizer limit fuel state = (none, state) := by
  cases fuel with
  | zero => rfl
  | succ fuel =>
      unfold WikiLink.findClose
      exact if_neg (Nat.not_lt.mpr noRoom)

namespace IsPlain

variable {source : String} {units : List SourceUnit} (plain : IsPlain source units)
include plain

/-- The search looks for two closing brackets, or goes on behind a character. -/
theorem findClose_succ (depth fuel : Nat) {state : InlineState} (sourceEq : state.source = source)
    (unitsEq : state.units = units) (startLe : runStart units ≤ state.position)
    (limitLe : state.limit ≤ runStop units) {char : Char} {before rest tail : List Char}
    (splits : Text.SplitsAt source state.position before (char :: rest ++ tail))
    (atLimit : state.position + Text.byteLength (char :: rest) = state.limit) :
    (WikiLink.findClose (withRules [WikiLink.rule] (depth + 1)) state.limit (fuel + 1) state).1 =
      if char = ']' ∧ rest.head? = some ']' then
        some state.position
      else
        (WikiLink.findClose (withRules [WikiLink.rule] (depth + 1)) state.limit fuel
          (state.goto (state.position + char.utf8Size))).1 := by
  have size := char.utf8Size_pos
  rw [Text.byteLength_cons] at atLimit
  by_cases room : state.position + 1 < state.limit
  · have brackets : (Text.byteAt? source state.position == some ']'
        && Text.byteAt? source (state.position + 1) == some ']') = true ↔
          char = ']' ∧ rest.head? = some ']' := by
      rw [Bool.and_eq_true, beq_iff_eq, beq_iff_eq, byteAt?_pair_iff splits
        (by rw [Text.byteLength_cons]; omega) (by decide) (by decide), List.head?_eq_some_iff]
      simp only [List.cons.injEq, exists_and_left]
    have charEq : Text.charAt? state.source state.position = some char :=
      sourceEq ▸ splits.charAt?_eq
    rw [WikiLink.findClose, if_pos room, sourceEq,
      plain.skip_eq unitsEq startLe (by omega) (by omega) charEq]
    simp only [brackets]
    split <;> rfl
  · -- the character is the last one
    have restEmpty : rest = [] := by
      cases rest with
      | nil => rfl
      | cons second rest =>
          have secondSize := second.utf8Size_pos
          rw [Text.byteLength_cons] at atLimit
          omega
    have noRoom : state.limit ≤ state.position + 1 := Nat.le_of_not_lt room
    have behind : state.limit ≤ (state.goto (state.position + char.utf8Size)).position + 1 := by
      change state.limit ≤ state.position + char.utf8Size + 1
      omega
    rw [WikiLink.findClose_of_limit_le _ _ noRoom, WikiLink.findClose_of_limit_le _ _ behind,
      restEmpty]
    simp

/-- The search finds the first two closing brackets. -/
theorem findClose_eq (depth fuel : Nat) {state : InlineState} (sourceEq : state.source = source)
    (unitsEq : state.units = units) (startLe : runStart units ≤ state.position)
    (limitLe : state.limit ≤ runStop units) {before chars tail : List Char}
    (splits : Text.SplitsAt source state.position before (chars ++ tail))
    (atLimit : state.position + Text.byteLength chars = state.limit)
    (enough : Text.byteLength chars ≤ fuel) :
    (WikiLink.findClose (withRules [WikiLink.rule] (depth + 1)) state.limit fuel state).1 =
      (PlainText.untilBrackets? chars).map fun (content, _) =>
        state.position + Text.byteLength content := by
  induction chars generalizing state before fuel with
  | nil =>
      rw [Text.byteLength_nil] at atLimit
      rw [WikiLink.findClose_of_limit_le _ _ (by omega)]
      rfl
  | cons char rest ih =>
      have size := char.utf8Size_pos
      have length := Text.byteLength_cons char rest
      obtain ⟨fuel, rfl⟩ : ∃ less, fuel = less + 1 := ⟨fuel - 1, by omega⟩
      rw [plain.findClose_succ depth fuel sourceEq unitsEq startLe limitLe splits atLimit,
        PlainText.untilBrackets?]
      split
      · rfl
      · have found := @ih fuel (state.goto (state.position + char.utf8Size)) sourceEq unitsEq
          (Nat.le_trans startLe (Nat.le_add_right _ _)) limitLe _ splits.next
          (by change state.position + char.utf8Size + _ = state.limit; omega) (by omega)
        refine found.trans ?_
        rw [Option.map_map]
        congr 1
        funext parts
        change state.position + char.utf8Size + _ = state.position + (char.utf8Size + _)
        rw [Nat.add_assoc]

/-- A link on one line is read if it is not empty. -/
theorem exists_linkTo? {state : InlineState} (unitsEq : state.units = units) {close : Nat}
    (nonempty : close ≠ state.position + 2)
    (noBreak : '\n' ∉ (Text.slice state.source (state.position + 2) close).toList) :
    ∃ target label, WikiLink.linkTo? state close = some (target, label, close + 2) := by
  simp only [WikiLink.linkTo?, plain.isBalanced unitsEq]
  rw [if_neg ?valid]
  case valid =>
    simp [nonempty, PlainText.hasBareNewline_eq_false noBreak]
  exact ⟨_, _, rfl⟩

/-- A link in a plain run is written as its content says. -/
theorem write_pieces (pages : PageSet) {place : WikiLink.Place} {before content tail : List Char}
    (splits : Text.SplitsAt source (place.start + 2) before (content ++ tail))
    (closeEq : place.close = place.start + 2 + Text.byteLength content)
    (startLe : runStart units ≤ place.start) (leStop : place.close ≤ runStop units)
    (output : Output) :
    output.write (place.pieces source pages units) =
      output.write (PlainText.linkPieces pages content) := by
  rcases parts : PlainText.atPipe false content with ⟨target, label⟩
  have contentEq := PlainText.append_atPipe false content
  rw [parts] at contentEq
  have ranges : place.parts source = WikiLink.ranges (String.ofList content) (place.start + 2) := by
    rw [WikiLink.Place.parts, closeEq, splits.slice_eq]
  rw [PlainText.ranges_eq_atPipe content (place.start + 2) parts] at ranges
  have targetEq : place.target source = WikiLink.Target.ofText (String.ofList target) := by
    rw [contentEq, List.append_assoc] at splits
    rw [WikiLink.Place.target, ranges, splits.slice_eq]
  rw [WikiLink.Place.pieces, WikiLink.Place.labelPieces, ranges, targetEq, PlainText.linkPieces,
    parts, Output.write_cons, Output.write_append]
  cases label with
  | none => rfl
  | some label =>
      have whole : Text.SplitsAt source (place.start + 2) before
          ((target ++ ['|']) ++ (label ++ tail)) := by
        rw [contentEq] at splits
        simpa using splits
      have pipe : ('|' : Char).utf8Size = 1 := rfl
      have atLabel := whole.advance
      have lengths := congrArg Text.byteLength contentEq
      simp only [Option.map_some, Option.getD_some, Text.byteLength_append, Text.byteLength_cons,
        Text.byteLength_nil, pipe] at atLabel lengths
      have written := plain.write_piecesIn atLabel (by omega) (by omega)
      simp only [Option.map_some]
      rw [written]
      rfl

end IsPlain

/-- A cursor in a plain run, in front of the characters that are left; no link is open. -/
structure InlineState.InFrontOf (source : String) (pages : PageSet) (units : List SourceUnit)
    (chars : List Char) (state : InlineState) : Prop where
  placed : Placed source units state
  draws : Draws source pages units state
  counts : CountsFrom source units (runStart units) (runStop units) 0 state
  exists_splitsAt : ∃ before tail, Text.SplitsAt source state.position before (chars ++ tail)
  atStop : state.position + Text.byteLength chars = runStop units

namespace InlineState.InFrontOf

variable {source : String} {pages : PageSet} {units : List SourceUnit} {chars : List Char}
  {state : InlineState} (plain : IsPlain source units)
  (inFront : state.InFrontOf source pages units chars)
include inFront

theorem limit_eq : state.limit = runStop units :=
  inFront.counts.limit_eq

/-- A link may begin where there are two opening brackets, and room for a link. -/
theorem mayBegin_iff : WikiLink.mayBegin state = true ↔
    5 ≤ Text.byteLength chars ∧ ∃ rest, chars = '[' :: '[' :: rest := by
  obtain ⟨before, tail, splits⟩ := inFront.exists_splitsAt
  have limitEq := inFront.limit_eq
  have atStop := inFront.atStop
  have room : state.position + 5 ≤ state.limit ↔ 5 ≤ Text.byteLength chars := by omega
  unfold WikiLink.mayBegin
  rw [Bool.and_assoc, Bool.and_eq_true, Bool.and_eq_true, decide_eq_true_eq, beq_iff_eq, beq_iff_eq,
    inFront.placed.source_eq, room]
  constructor
  · rintro ⟨enough, brackets⟩
    exact ⟨enough, (byteAt?_pair_iff splits (by omega) (by decide) (by decide)).mp brackets⟩
  · rintro ⟨enough, brackets⟩
    exact ⟨enough, (byteAt?_pair_iff splits (by omega) (by decide) (by decide)).mpr brackets⟩

include plain

theorem linkLevel_eq : state.linkLevel = 0 := by
  rw [inFront.counts.level_eq, plain.linksSince_eq_zero]

/-- What is read behind two opening brackets is the link up to the first two closing ones. -/
theorem read_eq (depth : Nat) {rest : List Char} (opens : chars = '[' :: '[' :: rest) :
    WikiLink.read (withRules [WikiLink.rule] (depth + 1)) state =
      ((PlainText.untilBrackets? rest).bind fun (content, _) =>
        WikiLink.linkTo? state (state.position + 2 + Text.byteLength content), state) := by
  obtain ⟨before, tail, splits⟩ := inFront.exists_splitsAt
  subst opens
  have one : ('[' : Char).utf8Size = 1 := rfl
  have atStop := inFront.atStop
  have limitEq := inFront.limit_eq
  have startLe : runStart units ≤ state.position := inFront.counts.origin_le
  have content : Text.SplitsAt source (state.position + 2) ((before ++ ['[']) ++ ['['])
      (rest ++ tail) := (splits.succ one).succ one
  simp only [Text.byteLength_cons, one] at atStop
  have moved : (state.goto (state.position + 2)).source = source := inFront.placed.source_eq
  have toLimit : state.position + 2 + Text.byteLength rest = state.limit := by omega
  have found := plain.findClose_eq depth (state.limit - state.position) moved
    inFront.placed.units_eq (Nat.le_trans startLe (Nat.le_add_right _ 2)) (Nat.le_of_eq limitEq)
    content toLimit (by omega)
  have back := WikiLink.read_state_eq (Tokenizer.skipsForward_withRules (depth + 1)) state
  refine Prod.ext ?_ back
  let inside := state.goto (state.position + 2)
  change ((WikiLink.findClose (withRules [WikiLink.rule] (depth + 1)) inside.limit
    (state.limit - state.position) inside).1.bind
      (WikiLink.linkTo? (WikiLink.read (withRules [WikiLink.rule] (depth + 1)) state).2)) = _
  rw [found, back]
  cases PlainText.untilBrackets? rest with
  | none => rfl
  | some parts => rfl

/-- Where no link stands, none is read. -/
theorem tryAll_eq_of_none (noLink : PlainText.linkAt? chars = none) (depth : Nat) :
    InlineRule.tryAll (withRules [WikiLink.rule] (depth + 1)) [WikiLink.rule] state =
      { isMatch := false, state } := by
  rcases Tokenizer.tryAll_wikiLink (Tokenizer.skipsForward_withRules (depth + 1)) state with
    refused | ⟨target, label, stop, begins, read, _⟩
  · exact refused
  · exfalso
    obtain ⟨_, rest, rfl⟩ := inFront.mayBegin_iff.mp begins
    rw [inFront.read_eq plain depth rfl] at read
    obtain ⟨⟨content, behind⟩, untilFound, linkFound⟩ :=
      Option.bind_eq_some_iff.mp (Prod.mk.inj read).1
    have nonempty := (WikiLink.of_linkTo? linkFound).1
    have isLink : PlainText.linkAt? ('[' :: '[' :: rest) = some (content, behind) := by
      refine Option.filter_eq_some_iff.mpr ⟨untilFound, ?_⟩
      cases content with
      | nil => exact absurd rfl nonempty
      | cons => rfl
    rw [noLink] at isLink
    cases isLink

/-- Where a link stands, it is written. -/
theorem exists_place_of_linkAt? (noBreak : '\n' ∉ chars) {content behind : List Char}
    (found : PlainText.linkAt? chars = some (content, behind)) (depth : Nat) :
    ∃ place : WikiLink.Place, place.start = state.position ∧
      place.close = state.position + 2 + Text.byteLength content ∧
      place.IsLink source units ∧
      InlineRule.tryAll (withRules [WikiLink.rule] (depth + 1)) [WikiLink.rule] state =
        { isMatch := true
          state := WikiLink.write (withRules [WikiLink.rule] (depth + 1)) state
            (place.target source) (place.parts source).2 place.stop } := by
  obtain ⟨rest, rfl, untilFound, _⟩ := PlainText.of_linkAt? found
  obtain ⟨lengthEq, size⟩ := PlainText.byteLength_of_linkAt? found
  obtain ⟨before, tail, splits⟩ := inFront.exists_splitsAt
  have forward := Tokenizer.skipsForward_withRules (depth + 1)
  -- the content stands between the brackets, and on one line
  have atContent := PlainText.splitsAt_content splits found
  have slice := atContent.slice_eq
  have onLine : '\n' ∉ (Text.slice state.source (state.position + 2)
      (state.position + 2 + Text.byteLength content)).toList := by
    rw [inFront.placed.source_eq, slice, String.toList_ofList]
    intro member
    exact noBreak (by simp [PlainText.of_untilBrackets? untilFound, member])
  have apart : state.position + 2 + Text.byteLength content ≠ state.position + 2 := by omega
  obtain ⟨target, label, linkTo⟩ := plain.exists_linkTo? inFront.placed.units_eq apart onLine
  have read : WikiLink.read (withRules [WikiLink.rule] (depth + 1)) state =
      (some (target, label, state.position + 2 + Text.byteLength content + 2), state) := by
    rw [inFront.read_eq plain depth rfl, untilFound]
    exact Prod.ext linkTo rfl
  have begins : WikiLink.mayBegin state = true := by
    refine inFront.mayBegin_iff.mpr ⟨?_, rest, rfl⟩
    omega
  have inOrder : runStart units ≤ runStop units :=
    Nat.le_trans inFront.counts.origin_le (Nat.le.intro inFront.atStop)
  obtain ⟨place, startEq, stopEq, rfl, rfl, isLink⟩ := WikiLink.exists_isLink_of_read
    plain.toWellFormed (plain.stretch inOrder) inFront.placed inFront.counts.origin_le
    (Nat.le_of_eq inFront.limit_eq) forward.skipsAhead begins read
  refine ⟨place, startEq, Nat.add_right_cancel stopEq, isLink, ?_⟩
  rw [stopEq]
  exact Tokenizer.tryAll_eq_write (inFront.linkLevel_eq plain) begins read

/-- A round leads from characters to those that are left behind it. -/
theorem afterRound (inside : state.position < state.limit) (depth : Nat) {left : List Char}
    (splits : ∃ before tail, Text.SplitsAt source (Tokenizer.afterRound [WikiLink.rule]
      (withRules [WikiLink.rule] (depth + 1)) state).position before (left ++ tail))
    (atStop : (Tokenizer.afterRound [WikiLink.rule]
      (withRules [WikiLink.rule] (depth + 1)) state).position + Text.byteLength left =
        runStop units) :
    (Tokenizer.afterRound [WikiLink.rule] (withRules [WikiLink.rule] (depth + 1)) state).InFrontOf
      source pages units left := by
  have wellFormed := plain.toWellFormed
  have forward := Tokenizer.skipsForward_withRules (depth + 1)
  have inOrder : runStart units ≤ runStop units :=
    Nat.le_trans inFront.counts.origin_le (Nat.le.intro inFront.atStop)
  obtain ⟨_, round⟩ := Tokenizer.exists_round wellFormed forward
    (Tokenizer.keepsNesting_withRules wellFormed (depth + 1)) inFront.placed inside rfl
  exact ⟨round.placed inFront.placed,
    Tokenizer.draws_round forward (Tokenizer.keepsOrigin_withRules (depth + 1)) inFront.draws rfl,
    Tokenizer.countsFrom_afterRound_wikiLink wellFormed (plain.stretch inOrder) inFront.counts
      inside (depth + 1), splits, atStop⟩

/-- In front of a character that begins no link, a round writes this character. -/
theorem afterRound_char {char : Char} {rest : List Char} (charsEq : chars = char :: rest)
    (noLink : PlainText.linkAt? chars = none) (depth : Nat) :
    (Tokenizer.afterRound [WikiLink.rule] (withRules [WikiLink.rule] (depth + 1)) state).InFrontOf
        source pages units rest ∧
      (Tokenizer.afterRound [WikiLink.rule]
          (withRules [WikiLink.rule] (depth + 1)) state).output =
        state.output.add (.text char.toString) := by
  subst charsEq
  obtain ⟨before, tail, splits⟩ := inFront.exists_splitsAt
  have atStop := inFront.atStop
  have size := char.utf8Size_pos
  rw [Text.byteLength_cons] at atStop
  have inside : state.position < state.limit := by
    rw [inFront.limit_eq]
    omega
  have charEq : Text.charAt? state.source state.position = some char :=
    inFront.placed.source_eq ▸ splits.charAt?_eq
  have nextEq : Tokenizer.afterRound [WikiLink.rule] (withRules [WikiLink.rule] (depth + 1)) state =
      (state.pushText char.toString).goto (state.position + char.utf8Size) := by
    unfold Tokenizer.afterRound
    rw [inFront.tryAll_eq_of_none plain noLink depth]
    exact plain.step_eq inFront.placed.units_eq inFront.counts.origin_le (by omega) charEq true
  refine ⟨inFront.afterRound plain inside depth ?_ ?_, ?_⟩
  · rw [nextEq]
    exact ⟨_, tail, splits.next⟩
  · rw [nextEq]
    change state.position + char.utf8Size + Text.byteLength rest = runStop units
    omega
  · rw [nextEq]
    rfl

/-- In front of a link, a round writes the link. -/
theorem afterRound_link (noBreak : '\n' ∉ chars) {content behind : List Char}
    (found : PlainText.linkAt? chars = some (content, behind)) (depth : Nat) :
    (Tokenizer.afterRound [WikiLink.rule] (withRules [WikiLink.rule] (depth + 1)) state).InFrontOf
        source pages units behind ∧
      (Tokenizer.afterRound [WikiLink.rule]
          (withRules [WikiLink.rule] (depth + 1)) state).output =
        state.output.write (PlainText.linkPieces pages content) := by
  obtain ⟨place, startEq, closeEq, isLink, tried⟩ :=
    inFront.exists_place_of_linkAt? plain noBreak found depth
  have nextEq : Tokenizer.afterRound [WikiLink.rule] (withRules [WikiLink.rule] (depth + 1)) state =
      WikiLink.write (withRules [WikiLink.rule] (depth + 1)) state (place.target source)
        (place.parts source).2 place.stop := by
    unfold Tokenizer.afterRound
    rw [tried]
    rfl
  have stopEq : (Tokenizer.afterRound [WikiLink.rule] (withRules [WikiLink.rule] (depth + 1))
      state).position = place.close + 2 := by
    rw [nextEq]
    rfl
  obtain ⟨lengthEq, _⟩ := PlainText.byteLength_of_linkAt? found
  obtain ⟨before, tail, splits⟩ := inFront.exists_splitsAt
  have closing : (']' : Char).utf8Size = 1 := rfl
  have atStop := inFront.atStop
  have atContent := PlainText.splitsAt_content splits found
  have atBehind := (atContent.advance.succ closing).succ closing
  refine ⟨inFront.afterRound plain ?_ depth ?_ ?_, ?_⟩
  · rw [inFront.limit_eq]
    omega
  · rw [stopEq, closeEq]
    exact ⟨_, tail, atBehind⟩
  · rw [stopEq, closeEq]
    omega
  · rw [nextEq, WikiLink.output_write plain.toWellFormed inFront.placed isLink,
      inFront.draws.pages_eq]
    exact plain.write_pieces pages (startEq ▸ atContent) (startEq ▸ closeEq)
      (startEq ▸ inFront.counts.origin_le) (by omega) state.output

end InlineState.InFrontOf

/-- With a round for every byte that is left, what is written is what the scanner finds. -/
theorem Tokenizer.output_tokenizeWith_of_isPlain {source : String} {pages : PageSet}
    {units : List SourceUnit} (plain : IsPlain source units) (depth rounds : Nat)
    {chars : List Char} (noBreak : '\n' ∉ chars) {state : InlineState}
    (inFront : state.InFrontOf source pages units chars) (enough : Text.byteLength chars ≤ rounds) :
    (tokenizeWith [WikiLink.rule] (withRules [WikiLink.rule] (depth + 1)) rounds state).output =
      (state.output.write (PlainText.scan pages chars)).flush := by
  induction rounds generalizing state chars with
  | zero =>
      cases chars with
      | nil => rw [tokenizeWith, PlainText.scan, Output.write_nil, InlineState.output_flush]
      | cons char rest =>
          have size := char.utf8Size_pos
          rw [Text.byteLength_cons] at enough
          omega
  | succ rounds ih =>
      have limitEq := inFront.limit_eq
      have atStop := inFront.atStop
      cases charsEq : chars with
      | nil =>
          rw [charsEq, Text.byteLength_nil] at atStop
          rw [tokenizeWith, if_neg (by omega), PlainText.scan, Output.write_nil,
            InlineState.output_flush]
      | cons char rest =>
          have size := char.utf8Size_pos
          rw [← charsEq]
          have length : Text.byteLength chars = char.utf8Size + Text.byteLength rest := by
            rw [charsEq, Text.byteLength_cons]
          rw [tokenizeWith, if_pos (by omega)]
          cases found : PlainText.linkAt? chars with
          | none =>
              obtain ⟨next, output⟩ := inFront.afterRound_char plain charsEq found depth
              have behindEq := ih
                (fun member => noBreak (charsEq ▸ List.mem_cons_of_mem char member)) next
                (by omega)
              refine behindEq.trans ?_
              rw [output, charsEq, PlainText.scan_of_linkAt?_eq_none (charsEq ▸ found),
                Output.write_cons]
          | some parts =>
              obtain ⟨content, behind⟩ := parts
              obtain ⟨next, output⟩ := inFront.afterRound_link plain noBreak found depth
              have lengthEq := (PlainText.byteLength_of_linkAt? found).1
              have behindEq := ih (fun member => noBreak
                (by simp [PlainText.eq_of_linkAt? found, member])) next (by omega)
              refine behindEq.trans ?_
              rw [output, PlainText.scan_of_linkAt? found, Output.write_append]

/-- The tokens of a plain run on one line are those that the scanner finds. -/
theorem tokenizeRun_plainText (source : String) (pages : PageSet) (units : List SourceUnit)
    (plain : IsPlain source units)
    (noBreak : '\n' ∉ (Text.slice source (runStart units) (runStop units)).toList) :
    tokenizeRun source pages [WikiLink.rule] units =
      Piece.tokens "" (PlainText.scan pages
        (Text.slice source (runStart units) (runStop units)).toList) := by
  rcases eq_or_ne units [] with rfl | nonempty
  · have start : Text.SplitsAt source 0 [] ([] ++ source.toList) := ⟨rfl, rfl⟩
    have noText : Text.slice source (runStart []) (runStop []) = String.ofList [] := start.slice_eq
    rw [noText, String.toList_ofList, PlainText.scan]
    rfl
  obtain ⟨placed, stretch, _, depth, ofOutput⟩ :=
    exists_tokenizeRun_of_output pages plain.toWellFormed nonempty
  obtain ⟨before, behind, splits⟩ := Text.isBoundary_iff.mp placed.atPosition.boundary
  obtain ⟨chars, tail, rfl, atStop⟩ :=
    splits.exists_middle placed.atLimit.boundary stretch.inOrder
  change runStart units + Text.byteLength chars = runStop units at atStop
  have textEq : Text.slice source (runStart units) (runStop units) = String.ofList chars :=
    atStop ▸ splits.slice_eq
  let start := InlineState.ofRun source pages units
  have counts : CountsFrom source units start.position start.limit start.linkLevel start :=
    InlineState.countsFrom_self plain.toWellFormed rfl rfl stretch
  rw [textEq, String.toList_ofList] at noBreak ⊢
  have inFront : start.InFrontOf source pages units chars :=
    ⟨placed, ⟨rfl, rfl, rfl, nofun⟩, counts, ⟨before, tail, splits⟩, atStop⟩
  exact ofOutput _ _
    (Tokenizer.output_tokenizeWith_of_isPlain plain depth _ noBreak inFront (by omega))

/-- The units of a text with a link that has an anchor and a label, and with empty brackets. -/
def linkAndBrackets : List SourceUnit :=
  [⟨0, 6, .text "é [[a" true⟩, ⟨6, 17, .text "#b|c]] [[]]" true⟩]

theorem isPlain_linkAndBrackets : IsPlain "é [[a#b|c]] [[]]" linkAndBrackets where
  toWellFormed := by decide +kernel
  isLiteral := by decide
  contiguous := by decide

theorem tokenizeRun_plainText_linkAndBrackets :
    (tokenizeRun "é [[a#b|c]] [[]]" ⟨["a"]⟩ [WikiLink.rule] linkAndBrackets).map
        (fun token => (token.kind, token.attributes, token.content)) =
      [(.text, [], "é "), (.linkOpen, [("href", "a.html#b"), ("class", "wiki-link")], ""),
        (.text, [], "c"), (.linkClose, [], ""), (.text, [], " [[]]")] ∧
      tokenizeRun "é [[a#b|c]] [[]]" ⟨["a"]⟩ [WikiLink.rule] linkAndBrackets =
        Piece.tokens "" (PlainText.scan ⟨["a"]⟩
          (Text.slice "é [[a#b|c]] [[]]" (runStart linkAndBrackets)
            (runStop linkAndBrackets)).toList) :=
  ⟨by decide +kernel, tokenizeRun_plainText _ ⟨["a"]⟩ _ isPlain_linkAndBrackets (by decide +kernel)⟩

end WikiPress
