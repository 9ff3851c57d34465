import WikiPress.Proofs.Inline.LinkRun
import WikiPress.Proofs.TableOfContents.ItemLine
import WikiPress.Proofs.TableOfContents.OpenLists

/-!
# Reading a listing

A listing is made of the lines of items, each of which stands at most one step deeper than
the one before it.  Every line is read as an item of the list at its depth, and the runs of
a listing are the links of its lines, in order.
-/

namespace WikiPress.Markdown

open Text

/-- From an offset on to the end of a text stand lines of items with certain targets, the
first of which is nested at most to a depth. -/
inductive Listing (window : Window) : (deepest start : Nat) → List String → Prop where
  | nil {deepest start : Nat} (atEnd : window.stop ≤ start) : Listing window deepest start []
  | cons {deepest start depth labelStop targetStop : Nat} {targets : List String}
      (depthLe : depth ≤ deepest)
      (spaces : ∀ offset, start ≤ offset → offset < start + 3 * depth →
        window.byte? offset = some ' ')
      (line : ItemLine window (start + 3 * depth) labelStop targetStop)
      (rest : Listing window (depth + 1) (targetStop + 2) targets) :
      Listing window deepest start (window.slice (labelStop + 2) targetStop :: targets)

/-- A run that is a link to a target, and does not begin with two brackets. -/
def Event.Run.IsLinkTo (source : String) (target : String) (run : Run) : Prop :=
  ∃ span : Span, span.start < span.stop ∧ byteAt? source (span.start + 1) ≠ some '[' ∧
    InlineEvent.IsLink span target run.events

variable {window : Window}

section Line

variable {start deepest depth labelStop targetStop : Nat} (depthLe : depth ≤ deepest)
  (spaces : ∀ offset, start ≤ offset → offset < start + 3 * depth →
    window.byte? offset = some ' ')
  (line : ItemLine window (start + 3 * depth) labelStop targetStop)

include depthLe spaces line

/-- The containers that go on at the start of a line: those around its item. -/
theorem enter_line :
    (LineCursor.ofLine window start).enter (nest deepest) =
      (⟨window, start + 3 * depth, start, 0⟩,
        2 * depth + if depth = deepest then 0 else 1) := by
  obtain ⟨more, rfl⟩ := Nat.exists_eq_add_of_le depthLe
  unfold LineCursor.ofLine
  rw [nest_add, LineCursor.enter_nest spaces]
  cases more with
  | zero => simp [nest, LineCursor.enter]
  | succ more =>
      rw [LineCursor.enter_nest_of_byte? line.number (by decide) (by decide), if_neg (by omega)]
      exact Prod.ext rfl (Nat.add_comm _ _)

end Line

/-- A listing leads to the line of an item or to the end of the text. -/
theorem Listing.exists_enterLine {deepest start : Nat} {targets : List String}
    (listing : Listing window deepest start targets) :
    ∃ content, ItemOrEnd window content ∧
      (LineCursor.enterLine window start (nest deepest)).1 = ⟨window, content, start, 0⟩ := by
  cases listing with
  | nil atEnd =>
      refine ⟨start, .inr atEnd, ?_⟩
      exact congrArg Prod.fst (LineCursor.enter_nest_of_stop_le atEnd deepest)
  | @cons _ _ depth labelStop targetStop _ depthLe spaces line rest =>
      refine ⟨start + 3 * depth, .inl ⟨labelStop, targetStop, line⟩, ?_⟩
      exact congrArg Prod.fst (enter_line depthLe spaces line)

/-! ## One line -/

section Line

variable {start labelStop targetStop columnZero : Nat}
  (line : ItemLine window start labelStop targetStop)

include line

/-- What stands behind the mark is read as a paragraph. -/
theorem readContent_eq {draft : Draft} (noList : draft.leaveList = draft) {block : Block}
    {stop : Nat} (read : readParagraph window draft.containers (start + 3) = (block, stop)) :
    readContent window draft ⟨window, start + 3, columnZero, 0⟩ = (draft.add block, stop) := by
  obtain ⟨noHtml, noBreak, noHeading, noFence, _⟩ := line.mark.begins_paragraph
  unfold readContent
  simp [line.mark.claimUpTo_opening, noHtml, noBreak, noHeading, noFence, readDefinitions,
    line.definition?_eq, noList, read]

end Line

/-- The list that a line belongs to is open when the containers that do not go on have been
closed. -/
theorem Draft.HoldsLists.continueLine {deepest depth : Nat} (depthLe : depth ≤ deepest)
    {draft : Draft} {runs : List Event.Run} (holds : draft.HoldsLists window false deepest runs)
    (stop : Nat) :
    ((draft.closeTo (2 * depth + if depth = deepest then 0 else 1)).continueList
      { mark := '.', number := 1, stop }).HoldsLists window true depth runs := by
  obtain ⟨more, rfl⟩ := Nat.exists_eq_add_of_le depthLe
  cases more with
  | zero =>
      rw [Nat.add_zero] at holds
      rw [if_pos (Nat.add_zero depth).symm, Nat.add_zero, holds.closeTo_all]
      exact holds.continueList _
  | succ more =>
      rw [show depth + (more + 1) = depth + 1 + more by omega] at holds
      rw [if_neg (by omega)]
      exact holds.closeTo.continueList _

/-- A line adds the run of its link. -/
theorem exists_readBlock {deepest start depth labelStop targetStop : Nat} {targets : List String}
    (depthLe : depth ≤ deepest)
    (spaces : ∀ offset, start ≤ offset → offset < start + 3 * depth →
      window.byte? offset = some ' ')
    (line : ItemLine window (start + 3 * depth) labelStop targetStop)
    (rest : Listing window (depth + 1) (targetStop + 2) targets) {draft : Draft}
    {runs : List Event.Run} (holds : draft.HoldsLists window false deepest runs) :
    ∃ run behind, readBlock window draft start = (behind, targetStop + 2) ∧
      behind.HoldsLists window false (depth + 1) (runs ++ [run]) ∧
      run.IsLinkTo window.text (window.slice (labelStop + 2) targetStop) := by
  have inWindow := Window.lt_stop_of_byte? line.number
  obtain ⟨count, countEq⟩ : ∃ count, count = 2 * depth + if depth = deepest then 0 else 1 :=
    ⟨_, rfl⟩
  let mark : ListMark := { mark := '.', number := 1, stop := start + 3 * depth + 2 }
  have list : ((draft.closeTo count).continueList mark).HoldsLists window true depth runs := by
    rw [countEq]
    exact holds.continueLine depthLe _
  let opened := ((draft.closeTo count).continueList mark).enter (.item 3)
  have openedHolds : opened.HoldsLists window false (depth + 1) runs := list.enter_item
  -- its paragraph
  obtain ⟨content, next, entered⟩ := rest.exists_enterLine
  obtain ⟨prose, read, isLink⟩ := line.exists_readParagraph next entered
  rw [← openedHolds.containers_eq] at read
  have link := isLink []
  have nonempty : prose.events window [] ≠ [] := by
    obtain ⟨inside, _, eventsEq⟩ := link
    rw [eventsEq]
    nofun
  refine ⟨⟨true, prose.events window []⟩, opened.add (.paragraph prose false), ?_,
    list.add_paragraph nonempty, ⟨start + 3 * depth + 3, targetStop + 1⟩, ?_, ?_, link⟩
  · have openEq : openContainers window (window.stop - start - 1 + 2) (draft.closeTo count)
        ⟨window, start + 3 * depth, start, 0⟩ =
          (opened, .inl ⟨window, start + 3 * depth + 3, start, 0⟩) :=
      line.mark.openContainers_eq (draft.closeTo count) (window.stop - start - 1) start
    have enough : window.stop - start + 1 = window.stop - start - 1 + 2 := by omega
    have notBlank : window.blankRest? (start + 3 * depth + 3) = none :=
      Window.blankRest?_of_byte? line.opening (by decide)
    unfold readBlock
    rw [holds.containers_eq, enter_line depthLe spaces line, enough, ← countEq]
    simp only [openEq, notBlank]
    exact readContent_eq line openedHolds.leaveList_eq read
  · have labelInOrder := line.label_inOrder
    have targetInOrder := line.target_inOrder
    simp only
    omega
  · exact line.byteAt?_label_ne

/-- The lines of a listing add the runs of their links. -/
theorem exists_readBlocks {deepest start : Nat} {targets : List String}
    (listing : Listing window deepest start targets) {fuel : Nat}
    (enough : window.stop - start < fuel) {draft : Draft} {runs : List Event.Run}
    (holds : draft.HoldsLists window false deepest runs) :
    ∃ links depth, (readBlocks window fuel draft start).HoldsLists window false depth
        (runs ++ links) ∧
      List.Forall₂ (fun target run => Event.Run.IsLinkTo window.text target run)
        targets links := by
  induction listing generalizing fuel draft runs with
  | @nil deepest start atEnd =>
      refine ⟨[], deepest, ?_, .nil⟩
      rw [List.append_nil]
      cases fuel with
      | zero => exact holds
      | succ fuel =>
          unfold readBlocks
          rw [if_neg (Nat.not_lt.mpr atEnd)]
          exact holds
  | @cons deepest start depth labelStop targetStop targets depthLe spaces line rest ih =>
      have inWindow := Window.lt_stop_of_byte? line.number
      have labelInOrder := line.label_inOrder
      have targetInOrder := line.target_inOrder
      obtain ⟨run, behind, read, behindHolds, isLink⟩ :=
        exists_readBlock depthLe spaces line rest holds
      cases fuel with
      | zero => exact absurd enough (Nat.not_lt_zero _)
      | succ fuel =>
          have restEnough : window.stop - (targetStop + 2) < fuel := by omega
          obtain ⟨links, depth, restHolds, restLinks⟩ := ih restEnough behindHolds
          refine ⟨run :: links, depth, ?_, .cons isLink restLinks⟩
          unfold readBlocks
          rw [if_pos (by omega), read]
          rw [List.append_assoc] at restHolds
          exact restHolds

/-- The runs of a text that is a listing are the links of its lines. -/
theorem Listing.forall₂_runs {text : String} {targets : List String}
    (listing : Listing (Window.whole text) 0 0 targets) :
    List.Forall₂ (fun target run => Event.Run.IsLinkTo text target run) targets
      (Event.runs (Event.ofText text)) := by
  have enough : (Window.whole text).stop - 0 < (Window.whole text).stop + 1 :=
    Nat.lt_succ_of_le (Nat.sub_le _ _)
  obtain ⟨links, depth, holds, areLinks⟩ :=
    exists_readBlocks listing enough (Draft.holdsLists_empty _)
  have runsEq : Event.runs (Event.ofText text) = [] ++ links := holds.runs_document
  rw [runsEq]
  exact areLinks

end WikiPress.Markdown
