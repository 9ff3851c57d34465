import WikiPress.Markdown.DocumentReader
import WikiPress.Proofs.Markdown.LineAtoms
import WikiPress.Proofs.Markdown.LinkReading
import WikiPress.Proofs.Text.Offset

/-!
# The line of a list item that is a link

A line `1. [label](#target)` is read in full: its mark begins an item, nothing but a
paragraph begins behind the mark, and this paragraph is a link.  The line behind it begins
with such a mark as well, or there is none; in both cases the paragraph ends there.
-/

namespace WikiPress.Markdown

open Text

/-- The characters of a label that mean nothing to the brackets around it. -/
def isLabelChar (char : Char) : Bool :=
  !"\\[]<\n\r".toList.contains char

theorem isLineEnd_of_isLabelChar {char : Char} (isLabel : isLabelChar char = true) :
    isLineEnd char = false := by
  unfold isLineEnd
  simp only [Bool.or_eq_false_iff, beq_eq_false_iff_ne]
  exact ⟨ne_of_passes isLabel (by decide), ne_of_passes isLabel (by decide)⟩

/-- Whatever is not ASCII means nothing to brackets. -/
theorem isLabelChar_of_le {char : Char} (large : 128 ≤ char.toNat) :
    isLabelChar char = true := by
  unfold isLabelChar
  simp only [Bool.not_eq_true', List.contains_eq_mem, decide_eq_false_iff_not]
  intro member
  have small : "\\[]<\n\r".toList.all (·.toNat < 128) = true := by decide
  exact absurd (of_decide_eq_true (List.all_eq_true.mp small char member)) (Nat.not_lt.mpr large)

/-! ## The mark -/

/-- The mark `1. ` of an item that begins with a bracket. -/
structure ItemMark (window : Window) (start : Nat) : Prop where
  number : window.byte? start = some '1'
  point : window.byte? (start + 1) = some '.'
  space : window.byte? (start + 2) = some ' '
  opening : window.byte? (start + 3) = some '['

namespace ItemMark

/-- A mark that stands in a text. -/
theorem of_splitsAt {text : String} {start : Nat} {before behind : List Char}
    (splits : SplitsAt text start before ('1' :: '.' :: ' ' :: '[' :: behind)) :
    ItemMark (Window.whole text) start := by
  have point := splits.succ rfl
  have space := point.succ rfl
  have opening := space.succ rfl
  constructor
  all_goals rw [Window.byte?_whole]
  · exact splits.byteAt?_eq (by decide)
  · exact point.byteAt?_eq (by decide)
  · exact space.byteAt?_eq (by decide)
  · exact opening.byteAt?_eq (by decide)

variable {window : Window} {start : Nat} (mark : ItemMark window start)

include mark

theorem claimUpTo_eq (columnZero : Nat) :
    (⟨window, start, columnZero, 0⟩ : LineCursor).claimUpTo 4 =
      (⟨window, start, columnZero, 0⟩, 0) := by
  refine LineCursor.claimUpTo_of_noSpace 4 ?_ ?_ <;>
  · rw [mark.number]
    decide

theorem claimUpTo_opening (columnZero : Nat) :
    (⟨window, start + 3, columnZero, 0⟩ : LineCursor).claimUpTo 4 =
      (⟨window, start + 3, columnZero, 0⟩, 0) := by
  refine LineCursor.claimUpTo_of_noSpace 4 ?_ ?_ <;>
  · rw [mark.opening]
    decide

theorem listMark?_eq :
    listMark? window start = some { mark := '.', number := 1, stop := start + 2 } := by
  have digits : window.skipWhile isAsciiDigit start = start + 1 := by
    refine Window.skipWhile_eq (Nat.le_succ start) ?_ ?_
    · intro offset startLe inside
      have atStart : offset = start := by omega
      rw [atStart, Window.holds_of_byte? mark.number]
      decide
    · rw [Window.holds_of_byte? mark.point]
      decide
  have written : window.slice start (start + 1) = "1" := by
    obtain ⟨before, behind, splits, _⟩ :=
      exists_splitsAt_of_byteAt? (Window.byteAt?_of_byte? mark.number) (by decide)
    have digitFirst : SplitsAt window.text start before (['1'] ++ behind) := splits
    exact digitFirst.slice_eq
  have separate : window.has (start + 2) ' ' = true := by
    rw [Window.has_of_byte? mark.space]
    rfl
  unfold listMark?
  rw [mark.number]
  simp [digits, mark.point, written, separate, decimal?, digitValue?, isAsciiDigit]

/-- An item begins with the mark; its lines are indented by three columns. -/
theorem itemStart?_eq (columnZero : Nat) :
    itemStart? ⟨window, start, columnZero, 0⟩ 0 =
      some ({ mark := '.', number := 1, stop := start + 2 }, 3,
        ⟨window, start + 3, columnZero, 0⟩) := by
  have claimed : ((⟨window, start + 2, columnZero, 0⟩ : LineCursor).claim 1).1 =
      ⟨window, start + 3, columnZero, 0⟩ := by
    rw [LineCursor.claim_spaces]
    intro offset startLe inside
    have atSpace : offset = start + 2 := by omega
    rw [atSpace]
    exact mark.space
  have notBlank : window.isBlankRest (start + 3) = false :=
    Window.isBlankRest_of_byte? mark.opening (by decide)
  unfold itemStart?
  simp [mark.listMark?_eq, ListMark.isBullet, claimed, notBlank, mark.claimUpTo_opening]

/-- The mark ends the paragraph in front of it. -/
theorem endsParagraph_eq (containers : List Container) (isInside : Bool) :
    endsParagraph window containers isInside start = true := by
  have skipped : window.skipBlanks (start + 2) = start + 3 := by
    refine Window.skipWhile_eq (Nat.le_succ _) ?_ ?_
    · intro offset startLe inside
      have atSpace : offset = start + 2 := by omega
      rw [atSpace, Window.holds_of_byte? mark.space]
      decide
    · rw [Window.holds_of_byte? mark.opening]
      decide
  have notBlank : isBlankTwice window (start + 2) = false := by
    unfold isBlankTwice Window.blankRest?
    rw [skipped, Window.lineEnd?_of_byte? mark.opening (by decide)]
  unfold endsParagraph endsLines
  simp [mark.listMark?_eq, notBlank]

theorem underline?_eq : underline? window start = none := by
  unfold underline?
  simp [mark.number]

theorem delimiterRow?_eq : delimiterRow? window start = none := by
  have content : (LineCursor.ofLine window start).claimUpTo 4 =
      (LineCursor.ofLine window start, 0) := mark.claimUpTo_eq start
  have begins : window.skipOne '|' start = start := by
    unfold Window.skipOne
    rw [Window.has_of_byte? mark.number]
    rfl
  have notRow (scan : DelimiterScan) :
      DelimiterScan.read? window (window.stop - start + 1) start scan = none := by
    unfold DelimiterScan.read?
    simp [Window.lineEnd?_of_byte? mark.number (by decide), mark.number, DelimiterScan.step?]
  unfold delimiterRow?
  rw [content]
  simp [LineCursor.ofLine, begins, notRow]

/-- Behind the mark begins no block but a paragraph. -/
theorem begins_paragraph :
    htmlBlockEnd? window (start + 3) = none ∧ thematicBreak? window (start + 3) = none ∧
      numberSignLevel? window (start + 3) = none ∧ openingFence? window (start + 3) = none ∧
      listMark? window (start + 3) = none := by
  have found := mark.opening
  refine ⟨?_, ?_, ?_, ?_, ?_⟩
  · unfold htmlBlockEnd?
    simp [Window.has_of_byte? found]
  · unfold thematicBreak?
    simp [found]
  · unfold numberSignLevel?
    have noSign : window.repeats '#' (start + 3) = 0 := Window.repeats_of_ne found (by decide)
    simp [noSign]
  · unfold openingFence?
    simp [found]
  · have digits : window.skipWhile isAsciiDigit (start + 3) = start + 3 :=
      Window.skipWhile_of_fails (by rw [Window.holds_of_byte? found]; decide)
    unfold listMark?
    simp [found, digits]

/-- Nothing begins behind the mark that could hold further blocks. -/
theorem openContainers_eq (draft : Draft) (fuel columnZero : Nat) :
    openContainers window (fuel + 2) draft ⟨window, start, columnZero, 0⟩ =
      ((draft.continueList { mark := '.', number := 1, stop := start + 2 }).enter (.item 3),
        .inl ⟨window, start + 3, columnZero, 0⟩) := by
  have noItem : itemStart? ⟨window, start + 3, columnZero, 0⟩ 0 = none := by
    unfold itemStart?
    simp [mark.begins_paragraph]
  have noQuote : (⟨window, start + 3, columnZero, 0⟩ : LineCursor).quoteMark? = none :=
    LineCursor.quoteMark?_of_byte? mark.opening (by decide)
  have notBlank : window.blankRest? (start + 3) = none :=
    Window.blankRest?_of_byte? mark.opening (by decide)
  simp [openContainers, mark.claimUpTo_eq, mark.itemStart?_eq, notBlank, mark.claimUpTo_opening,
    noItem, noQuote]

end ItemMark

/-! ## The line -/

/-- A line `1. [label](#target)` that begins with its number at `start`. -/
structure ItemLine (window : Window) (start labelStop targetStop : Nat) : Prop where
  number : window.byte? start = some '1'
  point : window.byte? (start + 1) = some '.'
  space : window.byte? (start + 2) = some ' '
  opening : window.byte? (start + 3) = some '['
  label : ∀ offset, start + 4 ≤ offset → offset < labelStop → ∃ char,
    window.byte? offset = some char ∧ isLabelChar char = true
  label_inOrder : start + 4 ≤ labelStop
  closing : window.byte? labelStop = some ']'
  parenthesis : window.byte? (labelStop + 1) = some '('
  sign : window.byte? (labelStop + 2) = some '#'
  target : ∀ offset, labelStop + 2 ≤ offset → offset < targetStop → ∃ char,
    window.byte? offset = some char ∧ isTargetChar char = true
  target_inOrder : labelStop + 2 < targetStop
  close : window.byte? targetStop = some ')'
  newline : window.byte? (targetStop + 1) = some '\n'

variable {window : Window} {start labelStop targetStop : Nat}

namespace ItemLine

variable (line : ItemLine window start labelStop targetStop)

include line

theorem mark : ItemMark window start :=
  ⟨line.number, line.point, line.space, line.opening⟩

/-! ## The content -/

/-- Behind the opening bracket stands no second one. -/
theorem byteAt?_label_ne : byteAt? window.text (start + 4) ≠ some '[' := by
  rcases Nat.eq_or_lt_of_le line.label_inOrder with atStop | inside
  · rw [atStop, Window.byteAt?_of_byte? line.closing]
    decide
  · obtain ⟨char, found, isLabel⟩ := line.label (start + 4) (Nat.le_refl _) inside
    rw [Window.byteAt?_of_byte? found]
    exact fun same => ne_of_passes isLabel (by decide) (Option.some.inj same)

/-- Space in the label is passed within the label. -/
theorem passSpace?_le {lineStart : Nat → Option Nat} {fuel position width behind total : Nat}
    {hasLineEnd : Bool} (startLe : start + 4 ≤ position) (inLabel : position ≤ labelStop)
    (passed : LabelScan.passSpace? window lineStart fuel position width hasLineEnd =
      some (behind, total)) : position ≤ behind ∧ behind ≤ labelStop := by
  induction fuel generalizing position width with
  | zero =>
      cases passed
      exact ⟨Nat.le_refl _, inLabel⟩
  | succ fuel ih =>
      unfold LabelScan.passSpace? at passed
      rcases Nat.eq_or_lt_of_le inLabel with rfl | inside
      · have noBlank : isLineBlank ']' = false := by decide
        have noEnd : isLineEnd ']' = false := by decide
        simp only [line.closing, noBlank, noEnd, Bool.false_eq_true, if_false] at passed
        cases passed
        exact ⟨Nat.le_refl _, Nat.le_refl _⟩
      · obtain ⟨char, found, isLabel⟩ := line.label position startLe inside
        simp only [found, isLineEnd_of_isLabelChar isLabel, Bool.false_eq_true, if_false] at passed
        split at passed
        · obtain ⟨forward, reached⟩ := ih (by omega) inside passed
          exact ⟨by omega, reached⟩
        · cases passed
          exact ⟨Nat.le_refl _, inLabel⟩

/-- A label can only end at the bracket. -/
theorem position_of_read? {lineStart : Nat → Option Nat} {fuel : Nat} {scan final : LabelScan}
    (startLe : start + 4 ≤ scan.position) (inLabel : scan.position ≤ labelStop)
    (read : LabelScan.read? window lineStart false fuel scan = some final) :
    final.position = labelStop := by
  induction fuel generalizing scan with
  | zero => cases read
  | succ fuel ih =>
      unfold LabelScan.read? at read
      split at read
      · cases read
      · rcases Nat.eq_or_lt_of_le inLabel with atStop | inside
        · simp only [atStop, line.closing] at read
          cases read
          exact atStop
        · obtain ⟨char, found, isLabel⟩ := line.label scan.position startLe inside
          simp only [found] at read
          split at read
          · cases read
          · rename_i isOpen
            exact absurd (Option.some.inj isOpen) (ne_of_passes isLabel (by decide))
          · rename_i isClose
            exact absurd (Option.some.inj isClose) (ne_of_passes isLabel (by decide))
          · rename_i isEscape
            exact absurd (Option.some.inj isEscape) (ne_of_passes isLabel (by decide))
          · split at read
            · split at read
              · cases read
              · rename_i behind total passed
                obtain ⟨forward, reached⟩ := line.passSpace?_le startLe inLabel passed
                split at read
                · exact ih (Nat.le_trans startLe forward) reached read
                · exact ih (Nat.le_trans startLe forward) reached read
            · refine ih ?_ ?_ read
              · exact Nat.le_succ_of_le startLe
              · exact inside

/-- The link is no definition. -/
theorem definition?_eq (containers : List Container) :
    definition? window containers (start + 3) = none := by
  have isOpen : window.has (start + 3) '[' = true := by
    rw [Window.has_of_byte? line.opening]
    rfl
  unfold definition?
  rw [if_pos isOpen]
  cases found : label? window (labelLine? window containers) false (start + 3 + 1) with
  | none => rfl
  | some labelled =>
      obtain ⟨label, behind⟩ := labelled
      have behindEq : behind = labelStop + 1 := by
        unfold label? at found
        split at found
        · cases found
        · rename_i scan read
          split at found
          · cases found
          · cases found
            have startLe : start + 4 ≤ start + 3 + 1 := Nat.le_refl _
            rw [line.position_of_read? startLe line.label_inOrder read]
      have noColon : window.has behind ':' = false := by
        rw [behindEq, Window.has_of_byte? line.parenthesis]
        decide
      simp [noColon]

end ItemLine

/-! ## The next line -/

/-- At an offset begins the line of an item, or the text ends. -/
def ItemOrEnd (window : Window) (offset : Nat) : Prop :=
  (∃ labelStop targetStop, ItemLine window offset labelStop targetStop) ∨ window.stop ≤ offset

namespace ItemOrEnd

variable {offset : Nat} (next : ItemOrEnd window offset)

include next

theorem noSpace : window.byte? offset ≠ some ' ' ∧ window.byte? offset ≠ some '\t' := by
  rcases next with ⟨_, _, line⟩ | atEnd
  · rw [line.number]
    decide
  · rw [Window.byte?_eq_none atEnd]
    exact ⟨nofun, nofun⟩

theorem delimiterRow?_eq : delimiterRow? window offset = none := by
  obtain ⟨noBlank, noTab⟩ := next.noSpace
  rcases next with ⟨_, _, line⟩ | atEnd
  · exact line.mark.delimiterRow?_eq
  · have content : (LineCursor.ofLine window offset).claimUpTo 4 =
        (LineCursor.ofLine window offset, 0) :=
      LineCursor.claimUpTo_of_noSpace 4 noBlank noTab
    unfold delimiterRow?
    rw [content]
    simp [LineCursor.ofLine, Window.byte?_eq_none atEnd]

theorem underline?_eq : underline? window offset = none := by
  rcases next with ⟨_, _, line⟩ | atEnd
  · exact line.mark.underline?_eq
  · unfold underline?
    simp [Window.byte?_eq_none atEnd]

theorem endsParagraph_eq (containers : List Container) (isInside : Bool) :
    endsParagraph window containers isInside offset = true := by
  rcases next with ⟨_, _, line⟩ | atEnd
  · exact line.mark.endsParagraph_eq containers isInside
  · unfold endsParagraph endsLines
    simp [Window.lineEnd?_of_stop_le atEnd]

end ItemOrEnd

/-! ## The paragraph -/

namespace ItemLine

section Bytes

variable (line : ItemLine window start labelStop targetStop) {offset : Nat}

include line

/-- Every atom of the label is flat. -/
theorem exists_label_byte (startLe : start + 4 ≤ offset) (inside : offset < labelStop) :
    ∃ char, window.byte? offset = some char ∧ char ≠ '\\' ∧ isLineEnd char = false ∧
      ∀ kind, Atom.Kind.Begins window offset char kind → kind.Flat := by
  obtain ⟨char, found, isLabel⟩ := line.label offset startLe inside
  refine ⟨char, found, ne_of_passes isLabel (by decide), isLineEnd_of_isLabelChar isLabel,
    ?_⟩
  intro kind begins
  cases begins with
  | run => exact .run _ _ _
  | ticks => exact .ticks
  | entity value => exact .entity value
  | angle => exact absurd isLabel (by decide)
  | linkOpen => exact absurd isLabel (by decide)
  | linkClose => exact absurd isLabel (by decide)
  | imageOpen bracket =>
      have isBracket := Window.byte?_of_has bracket
      rcases Nat.eq_or_lt_of_le inside with atStop | further
      · rw [Nat.succ_eq_add_one] at atStop
        rw [atStop, line.closing] at isBracket
        cases isBracket
      · obtain ⟨next, nextFound, nextIsLabel⟩ :=
          line.label (offset + 1) (Nat.le_succ_of_le startLe) further
        rw [isBracket] at nextFound
        cases nextFound
        exact absurd nextIsLabel (by decide)

/-- No atom of the target is a run of backticks. -/
theorem exists_target_byte (startLe : labelStop + 1 ≤ offset) (inside : offset < targetStop + 1) :
    ∃ char, window.byte? offset = some char ∧ char ≠ '\\' ∧ isLineEnd char = false ∧
      ∀ kind, Atom.Kind.Begins window offset char kind → kind.isTicks = false := by
  have noTicks {char : Char} (other : char ≠ '\x60') {kind : Atom.Kind}
      (begins : Atom.Kind.Begins window offset char kind) : kind.isTicks = false := by
    cases begins <;> first | rfl | exact absurd rfl other
  rcases Nat.eq_or_lt_of_le startLe with rfl | behind
  · exact ⟨'(', line.parenthesis, by decide, by decide, fun kind => noTicks (by decide)⟩
  · rcases Nat.eq_or_lt_of_le (Nat.le_of_lt_succ inside) with rfl | within
    · exact ⟨')', line.close, by decide, by decide, fun kind => noTicks (by decide)⟩
    · obtain ⟨char, found, isTarget⟩ := line.target offset behind within
      exact ⟨char, found, ne_of_passes isTarget (by decide),
        isLineEnd_of_isTargetChar isTarget,
        fun kind => noTicks (ne_of_passes isTarget (by decide))⟩

end Bytes

section Label

variable (line : ItemLine window start labelStop targetStop) (containers : List Container)

include line

/-- Up to the bracket that closes it, the label adds flat atoms to the bracket that opens
it. -/
theorem exists_readLabel :
    ∃ scan fuel inner, window.stop - labelStop ≤ fuel ∧ (∀ atom ∈ inner, atom.kind.Flat) ∧
      scan.finish labelStop = inner ++ [⟨start + 3, start + 4, .linkOpen⟩] ∧
      readLine window containers .first [] (start + 3) =
        LineScan.read window containers .first (start + 3) (fuel + 1) scan labelStop := by
  let opening : Atom := ⟨start + 3, start + 4, .linkOpen⟩
  let begun : LineScan := { atoms := [], textStart := start + 3, lastPipe := start + 3 }
  let opened := begun.add (start + 3) (start + 4) .linkOpen
  have openingInside := Window.lt_stop_of_byte? line.opening
  have noCell : LineRole.first ≠ .cell := by decide
  have openedEq : begun.step window .first (start + 3) '[' = (opened, start + 4) := by
    simp [LineScan.step, opened]
  have openedBehind : Atom.Behind (fun atom => atom.kind.Flat) [opening] opened.atoms :=
    ⟨[], by simp [LineScan.add, LineScan.finish, Atom.addText, begun, opened, opening], nofun⟩
  have enough : window.stop - (start + 4) < window.stop - (start + 3) := by omega
  obtain ⟨fuel, scan, rest, behind, read⟩ :=
    LineScan.exists_read line.closing (by decide) containers noCell (start + 3) openedBehind
      (by rintro _ ⟨⟩; nofun) (fun _ _ _ => .text)
      (fun offset startLe inside =>
        have ⟨char, found, noEscape, noEnd, flat⟩ := line.exists_label_byte startLe inside
        ⟨char, found, noEscape, noEnd, fun _ kind _ begins => flat kind begins⟩)
      (Nat.le_refl _) line.label_inOrder enough
  obtain ⟨fuel, rfl⟩ : ∃ fewer, fuel = fewer + 1 := ⟨fuel - 1, by omega⟩
  have finished : Atom.Behind (fun atom => atom.kind.Flat) [opening] (scan.finish labelStop) :=
    behind.addText (by rintro _ ⟨⟩; nofun) fun _ => .text
  obtain ⟨inner, innerEq, innerFlat⟩ := finished
  refine ⟨scan, fuel, inner, Nat.le_of_lt_succ rest, innerFlat, innerEq, ?_⟩
  unfold readLine
  rw [LineScan.read_succ line.opening (by decide) containers noCell, openedEq, read]

end Label

variable (line : ItemLine window start labelStop targetStop) {containers : List Container}
  {content : Nat} (next : ItemOrEnd window content)
  (entered : (LineCursor.enterLine window (targetStop + 2) containers).1 =
    ⟨window, content, targetStop + 2, 0⟩)

include line next entered

/-- The line ends with a line break. -/
theorem endLine_eq (scan : LineScan) :
    scan.endLine window containers .first (start + 3) (targetStop + 1) (targetStop + 2) =
      (scan.finish (targetStop + 1), targetStop + 2,
        .lineBreak ⟨targetStop + 1, targetStop + 2, .softBreak⟩) := by
  have noHead : scan.tableHead? window containers (start + 3) (targetStop + 2) = none := by
    unfold LineScan.tableHead?
    split
    · rfl
    · simp [entered, next.delimiterRow?_eq]
  have noBackslash : window.trimBack (· == '\\') 0 (targetStop + 1) = targetStop + 1 :=
    Window.trimBack_of_fails 0 (by rw [Window.holds_of_byte? line.close]; decide)
  have noBlank : window.trimBack isLineBlank 0 (targetStop + 1) = targetStop + 1 :=
    Window.trimBack_of_fails 0 (by rw [Window.holds_of_byte? line.close]; decide)
  unfold LineScan.endLine
  simp [noBackslash, noHead, noBlank]

/-- From the bracket that closes the label to the end of the line, atoms of the target are
added, of which none is a run of backticks. -/
theorem exists_readTarget (scan : LineScan) {fuel : Nat}
    (enough : window.stop - labelStop ≤ fuel) :
    ∃ tail, (∀ atom ∈ tail, atom.kind.isTicks = false) ∧
      (∀ atom ∈ tail, atom.stop ≤ targetStop + 1) ∧
      LineScan.read window containers .first (start + 3) (fuel + 1) scan labelStop =
        (tail ++ ⟨labelStop, labelStop + 1, .linkClose true⟩ :: scan.finish labelStop,
          targetStop + 2, .lineBreak ⟨targetStop + 1, targetStop + 2, .softBreak⟩) := by
  let closing : Atom := ⟨labelStop, labelStop + 1, .linkClose true⟩
  let allowed (atom : Atom) : Prop := atom.kind.isTicks = false ∧ atom.stop ≤ targetStop + 1
  let closed := scan.add labelStop (labelStop + 1) (.linkClose true)
  have newlineInside := Window.lt_stop_of_byte? line.newline
  have targetInOrder := line.target_inOrder
  have noCell : LineRole.first ≠ .cell := by decide
  have closedEq : scan.step window .first labelStop ']' = (closed, labelStop + 1) := by
    simp [LineScan.step, closed]
  have closedBehind : Atom.Behind allowed (closing :: scan.finish labelStop) closed.atoms :=
    ⟨[], rfl, nofun⟩
  have targetEnough : window.stop - (labelStop + 1) < fuel := by omega
  obtain ⟨fuel, reached, rest, behind, read⟩ :=
    LineScan.exists_read line.newline (by decide) containers noCell (start + 3) closedBehind
      (by rintro _ ⟨⟩; nofun) (fun _ _ stopLe => ⟨rfl, stopLe⟩)
      (fun offset startLe inside =>
        have ⟨char, found, noEscape, noEnd, noTicks⟩ := line.exists_target_byte startLe inside
        ⟨char, found, noEscape, noEnd, fun _ kind stopLe begins =>
          ⟨noTicks kind begins, stopLe⟩⟩)
      (Nat.le_refl _) (by omega) targetEnough
  obtain ⟨fuel, rfl⟩ : ∃ fewer, fuel = fewer + 1 := ⟨fuel - 1, by omega⟩
  have ended : LineScan.read window containers .first (start + 3) (fuel + 1) reached
      (targetStop + 1) = (reached.finish (targetStop + 1), targetStop + 2,
        .lineBreak ⟨targetStop + 1, targetStop + 2, .softBreak⟩) := by
    rw [LineScan.read]
    simp [line.newline, Window.lineEnd?_newline line.newline, isLineEnd,
      line.endLine_eq next entered]
  have finished : Atom.Behind allowed (closing :: scan.finish labelStop)
      (reached.finish (targetStop + 1)) :=
    behind.addText (by rintro _ ⟨⟩; nofun) fun _ => ⟨rfl, Nat.le_refl _⟩
  obtain ⟨tail, tailEq, tailAllowed⟩ := finished
  refine ⟨tail, fun atom member => (tailAllowed atom member).1,
    fun atom member => (tailAllowed atom member).2, ?_⟩
  rw [LineScan.read_succ line.closing (by decide) containers noCell, closedEq, read, ended, tailEq]

/-- What begins behind the mark is a paragraph, which is a link. -/
theorem exists_readParagraph :
    ∃ prose, readParagraph window containers (start + 3) =
        (.paragraph prose false, targetStop + 2) ∧
      ∀ definitions, InlineEvent.IsLink ⟨start + 3, targetStop + 1⟩
        (window.slice (labelStop + 2) targetStop) (prose.events window definitions) := by
  obtain ⟨scan, fuel, inner, enough, flat, innerEq, labelRead⟩ := line.exists_readLabel containers
  obtain ⟨tail, noTicks, ends, targetRead⟩ := line.exists_readTarget next entered scan enough
  have read := labelRead.trans targetRead
  rw [innerEq] at read
  obtain ⟨noBlank, noTab⟩ := next.noSpace
  let opening : Atom := ⟨start + 3, start + 4, .linkOpen⟩
  let closing : Atom := ⟨labelStop, labelStop + 1, .linkClose true⟩
  let prose : Prose := {
    atoms := opening :: (inner.reverse ++ closing :: tail.reverse)
    stop := targetStop + 2
    containers }
  refine ⟨prose, ?_, ?_⟩
  · have claimed : (⟨window, content, targetStop + 2, 0⟩ : LineCursor).claim 4 =
        (⟨window, content, targetStop + 2, 0⟩, 4) :=
      LineCursor.claim_of_noSpace 4 noBlank noTab
    unfold readParagraph readLines
    simp only [if_true, read]
    rw [show LineCursor.enterLine window (targetStop + 2) containers =
      (⟨window, content, targetStop + 2, 0⟩,
        (LineCursor.enterLine window (targetStop + 2) containers).2) from Prod.ext entered rfl]
    simp [claimed, next.underline?_eq, next.endsParagraph_eq, prose, opening, closing]
  · intro definitions
    have before {offset : Nat} (inside : offset < targetStop + 2) :
        (prose.context window definitions).window.byte? offset = window.byte? offset :=
      Window.byte?_before inside
    have targetInOrder := line.target_inOrder
    have atomsEq : prose.atoms = opening :: (inner.reverse ++ closing :: tail.reverse) := rfl
    refine Prose.isLink_events atomsEq rfl rfl
      (fun atom member => flat atom (List.mem_reverse.mp member))
      (fun atom member => noTicks atom (List.mem_reverse.mp member))
      (fun atom member => ends atom (List.mem_reverse.mp member)) ?_
    have parenthesis : (prose.context window definitions).window.byte? closing.stop =
        some '(' := by
      rw [before (by change labelStop + 1 < targetStop + 2; omega)]
      exact line.parenthesis
    have sign : (prose.context window definitions).window.byte? (closing.stop + 1) =
        some '#' := by
      rw [before (by change labelStop + 1 + 1 < targetStop + 2; omega)]
      exact line.sign
    refine linkTarget?_eq _ parenthesis sign (by decide) ?_ ?_ targetInOrder
    · intro offset startLe inside
      rw [before (by omega)]
      exact line.target offset startLe inside
    · rw [before (by omega)]
      exact line.close

end ItemLine

end WikiPress.Markdown
