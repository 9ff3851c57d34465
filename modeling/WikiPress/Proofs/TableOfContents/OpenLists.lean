import WikiPress.Proofs.Block.Documents
import WikiPress.Proofs.Markdown.Windows

/-!
# Open lists

While a table of contents is read, lists and items are open in turn, each inside the last:
all lists are numbered and tight, and the lines of all items are indented by three columns.
The events of what has been read so far are known although the containers are still open;
closing one only adds that it is left.
-/

namespace WikiPress.Markdown

/-! ## Containers -/

/-- The containers of lists in lists of a depth, the outermost first. -/
def nest : Nat → List Container
  | 0 => []
  | depth + 1 => .list '.' 1 :: .item 3 :: nest depth

theorem nest_add (outer inner : Nat) : nest (outer + inner) = nest outer ++ nest inner := by
  induction outer with
  | zero => rw [Nat.zero_add]; rfl
  | succ outer ih =>
      rw [Nat.add_right_comm]
      exact congrArg (fun containers => Container.list '.' 1 :: .item 3 :: containers) ih

namespace LineCursor

variable {window : Window} {position columnZero outer : Nat}

/-- Three spaces lead into an item, and into the list around it. -/
theorem enter_nest (spaces : ∀ offset, position ≤ offset → offset < position + 3 * outer →
      window.byte? offset = some ' ') (containers : List Container) :
    (⟨window, position, columnZero, 0⟩ : LineCursor).enter (nest outer ++ containers) =
      (((⟨window, position + 3 * outer, columnZero, 0⟩ : LineCursor).enter containers).1,
        ((⟨window, position + 3 * outer, columnZero, 0⟩ : LineCursor).enter containers).2 +
          2 * outer) := by
  induction outer generalizing position with
  | zero => rfl
  | succ outer ih =>
      have claimed : (⟨window, position, columnZero, 0⟩ : LineCursor).claim 3 =
          (⟨window, position + 3, columnZero, 0⟩, 0) :=
        claim_spaces fun offset startLe inside => spaces offset startLe (by omega)
      have inner : ∀ offset, position + 3 ≤ offset → offset < position + 3 + 3 * outer →
          window.byte? offset = some ' ' :=
        fun offset startLe inside => spaces offset (by omega) (by omega)
      have behind := ih inner
      have same : position + 3 + 3 * outer = position + 3 * (outer + 1) := by omega
      rw [same] at behind
      change (⟨window, position, columnZero, 0⟩ : LineCursor).enter
        (.list '.' 1 :: .item 3 :: (nest outer ++ containers)) = _
      simp only [enter, enterOne?, claimed, decide_true, Bool.true_or, if_true, behind]
      refine Prod.ext rfl ?_
      simp only
      omega

/-- Without spaces a line belongs to the next list, but not to its item. -/
theorem enter_nest_of_byte? {char : Char} (found : window.byte? position = some char)
    (noBlank : char ≠ ' ' ∧ char ≠ '\t') (noEnd : Text.isLineEnd char = false) (depth : Nat) :
    (⟨window, position, columnZero, 0⟩ : LineCursor).enter (nest (depth + 1)) =
      (⟨window, position, columnZero, 0⟩, 1) := by
  have claimed : (⟨window, position, columnZero, 0⟩ : LineCursor).claim 3 =
      (⟨window, position, columnZero, 0⟩, 3) := by
    refine claim_of_noSpace 3 ?_ ?_
    · rw [found]
      exact fun same => noBlank.1 (Option.some.inj same)
    · rw [found]
      exact fun same => noBlank.2 (Option.some.inj same)
  have notAtEnd : (⟨window, position, columnZero, 0⟩ : LineCursor).isAtEnd = false := by
    unfold isAtEnd
    rw [Window.lineEnd?_of_byte? found noEnd]
    rfl
  simp [nest, enter, enterOne?, claimed, notAtEnd]

/-- At the end of the text all containers go on. -/
theorem enter_nest_of_stop_le (atEnd : window.stop ≤ position) (depth : Nat) :
    (⟨window, position, columnZero, 0⟩ : LineCursor).enter (nest depth) =
      (⟨window, position, columnZero, 0⟩, 2 * depth) := by
  induction depth with
  | zero => rfl
  | succ depth ih =>
      have claimed : (⟨window, position, columnZero, 0⟩ : LineCursor).claim 3 =
          (⟨window, position, columnZero, 0⟩, 3) := by
        refine claim_of_noSpace 3 ?_ ?_ <;>
        · rw [Window.byte?_eq_none atEnd]
          nofun
      have ended : (⟨window, position, columnZero, 0⟩ : LineCursor).isAtEnd = true := by
        unfold isAtEnd
        rw [Window.lineEnd?_of_stop_le atEnd]
        rfl
      simp only [nest, enter, enterOne?, claimed, ended, ih, Bool.or_true, if_true]
      refine Prod.ext rfl ?_
      simp only
      omega

end LineCursor

/-! ## Frames -/

/-- Open lists and items in turn, the innermost first: `inList` tells whether the innermost
one is a list, and there are `depth` items. -/
inductive OpenLists : (inList : Bool) → (depth : Nat) → List OpenContainer → Prop where
  | nil : OpenLists false 0 []
  | list {depth : Nat} {frames : List OpenContainer} (blocks : List Block)
      (outer : OpenLists false depth frames) :
      OpenLists true depth ({ container := .list '.' 1, blocks } :: frames)
  | item {depth : Nat} {frames : List OpenContainer} (blocks : List Block)
      (outer : OpenLists true depth frames) :
      OpenLists false (depth + 1) ({ container := .item 3, blocks } :: frames)

/-- The containers of open lists. -/
theorem OpenLists.containers_eq {inList : Bool} {depth : Nat} {frames : List OpenContainer}
    (isOpen : OpenLists inList depth frames) :
    (frames.map (·.container)).reverse = nest depth ++ if inList then [.list '.' 1] else [] := by
  induction isOpen with
  | nil => rfl
  | list blocks _ ih => simp [ih]
  | @item depth frames blocks _ ih =>
      rw [List.map_cons, List.reverse_cons, ih, nest_add depth 1]
      simp [nest]

theorem OpenLists.length_eq {inList : Bool} {depth : Nat} {frames : List OpenContainer}
    (isOpen : OpenLists inList depth frames) :
    frames.length = 2 * depth + if inList then 1 else 0 := by
  induction isOpen with
  | nil => rfl
  | list blocks _ ih => simp [ih]
  | item blocks _ ih =>
      simp only [List.length_cons, ih, if_true, Bool.false_eq_true, if_false]
      omega

/-! ## Events -/

/-- The block that a container opens. -/
def Container.tag : Container → BlockTag
  | .quote => .quote
  | .list _ first => .list (some first)
  | .item _ => .item

/-- A block as it stands in a container that belongs to a tight list. -/
def Container.tighten : Container → Block → Block
  | .quote, block => block
  | .list _ _, block => block.tightItem
  | .item _, block => block.inTightItem

/-- The events of open containers, up to what has been read. -/
def OpenContainer.shown (source : Window) : List OpenContainer → List Event
  | [] => []
  | frame :: frames =>
    shown source frames ++ .enter frame.container.tag ::
      Event.ofBlocks source [] (frame.blocks.reverse.map frame.container.tighten)

@[simp]
theorem Event.ofBlocks_append (source : Window) (definitions : List Definition)
    (first rest : List Block) :
    ofBlocks source definitions (first ++ rest) =
      ofBlocks source definitions first ++ ofBlocks source definitions rest := by
  simp only [ofBlocks_eq_flatMap, List.flatMap_append]

namespace OpenContainer

variable {source : Window} {depth : Nat} {frame outer : OpenContainer}
  {frames : List OpenContainer}

/-- What a list or an item becomes when it is closed in the container around it. -/
theorem ofBlock_close {inList : Bool} (isOpen : OpenLists inList depth (frame :: outer :: frames)) :
    Event.ofBlock source [] (outer.container.tighten frame.close) =
      Event.inside frame.container.tag
        (Event.ofBlocks source [] (frame.blocks.reverse.map frame.container.tighten)) := by
  cases isOpen with
  | list blocks isOpen =>
      cases isOpen with
      | item outerBlocks isOpen =>
          change Event.ofBlock source [] (.list (some 1) (blocks.reverse.map Block.tightItem)) = _
          rw [Event.ofBlock]
          rfl
  | item blocks isOpen =>
      cases isOpen with
      | list outerBlocks isOpen =>
          change Event.ofBlock source [] (.item (blocks.reverse.map Block.inTightItem)) = _
          rw [Event.ofBlock]
          rfl

@[simp]
theorem shown_add (block : Block) :
    shown source ({ frame with blocks := block :: frame.blocks } :: frames) =
      shown source (frame :: frames) ++
        Event.ofBlock source [] (frame.container.tighten block) := by
  simp [shown, Event.ofBlocks_append, Event.ofBlocks]

/-- Closing a container only adds that it is left. -/
theorem shown_close {inList : Bool} (isOpen : OpenLists inList depth (frame :: outer :: frames)) :
    shown source ({ outer with blocks := frame.close :: outer.blocks } :: frames) =
      shown source (frame :: outer :: frames) ++ [.leave frame.container.tag.kind] := by
  rw [shown_add, ofBlock_close isOpen, Event.inside, shown, shown]
  simp [shown]

end OpenContainer

open OpenContainer (shown)

theorem Event.runs_append_leave (events : List Event) (kind : BlockTag.Kind) :
    runs (events ++ [.leave kind]) = runs events :=
  (runsFrom_append_leave true events kind []).trans (List.append_nil _)

theorem Event.runs_append_enter (events : List Event) {tag : BlockTag} (notText : tag.place ≠ .text)
    (inside : List Event) : runs (events ++ .enter tag :: inside) = runs events ++ runs inside := by
  refine (runsFrom_append true events rfl inside).trans ?_
  unfold runs
  rw [runsFrom, if_neg notText]

/-- Inline events are a run, unless there are none. -/
theorem Event.runs_inlines {inlines : List InlineEvent} (nonempty : inlines ≠ []) :
    runs (inlines.map .inline) = [⟨true, inlines⟩] := by
  cases inlines with
  | nil => exact absurd rfl nonempty
  | cons first rest =>
      have behind := leadingInlines_inlines rest
      have inside := runsFrom_false_inlines rest
      unfold runs
      rw [List.map_cons, runsFrom, behind, inside]
      rfl

/-! ## Drafts -/

namespace Draft

/-- A draft that holds nothing but open lists, with the runs of what has been read. -/
structure HoldsLists (draft : Draft) (source : Window) (inList : Bool) (depth : Nat)
    (runs : List Event.Run) : Prop where
  isOpen : OpenLists inList depth draft.frames
  blocks_eq : draft.blocks = []
  definitions_eq : draft.definitions = []
  awaitsContent_eq : draft.awaitsContent = false
  afterBlank_eq : draft.afterBlank = false
  runs_eq : Event.runs (shown source draft.frames) = runs

variable {draft : Draft} {source : Window} {inList : Bool} {depth : Nat} {runs : List Event.Run}

theorem holdsLists_empty (source : Window) : HoldsLists {} source false 0 [] :=
  ⟨.nil, rfl, rfl, rfl, rfl, rfl⟩

@[simp]
theorem closeMany_succ (draft : Draft) (count : Nat) :
    (draft.closeMany count).close = draft.closeMany (count + 1) := by
  induction count generalizing draft with
  | zero => rfl
  | succ count ih => exact ih draft.close

namespace HoldsLists

theorem containers_eq (holds : draft.HoldsLists source false depth runs) :
    draft.containers = nest depth := by
  unfold Draft.containers
  rw [holds.isOpen.containers_eq]
  simp

theorem exists_frames (holds : draft.HoldsLists source inList depth runs) :
    ∃ frames, draft = { frames } := by
  obtain ⟨frames, blocks, definitions, awaitsContent, afterBlank⟩ := draft
  cases holds.blocks_eq
  cases holds.definitions_eq
  cases holds.awaitsContent_eq
  cases holds.afterBlank_eq
  exact ⟨frames, rfl⟩

theorem leaveList_eq (holds : draft.HoldsLists source false depth runs) :
    draft.leaveList = draft := by
  obtain ⟨frames, rfl⟩ := holds.exists_frames
  have isOpen := holds.isOpen
  cases isOpen <;> rfl

/-- A container is closed in the container around it. -/
theorem close_of_two (holds : draft.HoldsLists source inList depth runs)
    {frame outer : OpenContainer} {frames : List OpenContainer}
    (framesEq : draft.frames = frame :: outer :: frames) {outerInList : Bool} {outerDepth : Nat}
    (isOpen : OpenLists outerInList outerDepth
      ({ outer with blocks := frame.close :: outer.blocks } :: frames)) :
    draft.close.HoldsLists source outerInList outerDepth runs := by
  have frameIsOpen := holds.isOpen
  rw [framesEq] at frameIsOpen
  unfold Draft.close
  rw [framesEq]
  refine ⟨isOpen, holds.blocks_eq, holds.definitions_eq, ?_, holds.afterBlank_eq, ?_⟩
  · simp only [Draft.add, holds.awaitsContent_eq]
    split <;> rfl
  · refine (congrArg Event.runs (OpenContainer.shown_close frameIsOpen)).trans ?_
    rw [Event.runs_append_leave, ← framesEq, holds.runs_eq]

/-- Closing an item leaves the list around it open. -/
theorem close_item (holds : draft.HoldsLists source false (depth + 1) runs) :
    draft.close.HoldsLists source true depth runs := by
  have isOpen := holds.isOpen
  cases framesEq : draft.frames with
  | nil =>
      rw [framesEq] at isOpen
      cases isOpen
  | cons frame frames =>
      rw [framesEq] at isOpen
      cases isOpen with
      | item blocks inner =>
          cases inner with
          | list listBlocks inner => exact holds.close_of_two framesEq (.list _ inner)

/-- Closing a list leaves the item around it open. -/
theorem close_list (holds : draft.HoldsLists source true (depth + 1) runs) :
    draft.close.HoldsLists source false (depth + 1) runs := by
  have isOpen := holds.isOpen
  cases framesEq : draft.frames with
  | nil =>
      rw [framesEq] at isOpen
      cases isOpen
  | cons frame frames =>
      rw [framesEq] at isOpen
      cases isOpen with
      | list blocks inner =>
          cases inner with
          | item itemBlocks inner => exact holds.close_of_two framesEq (.item _ inner)

/-- All but the outer containers are closed, the last of which is a list. -/
theorem closeTo (holds : draft.HoldsLists source false (depth + 1 + more) runs) :
    (draft.closeTo (2 * depth + 1)).HoldsLists source true depth runs := by
  unfold Draft.closeTo
  rw [holds.isOpen.length_eq]
  have count : 2 * (depth + 1 + more) + (if false then 1 else 0) - (2 * depth + 1) =
      2 * more + 1 := by
    simp only [Bool.false_eq_true, if_false]
    omega
  rw [count]
  clear count
  induction more generalizing draft with
  | zero => exact holds.close_item
  | succ more ih =>
      have item : draft.close.HoldsLists source true (depth + more + 1) runs := by
        have holds' : draft.HoldsLists source false (depth + more + 1 + 1) runs := by
          rwa [show depth + more + 1 + 1 = depth + 1 + (more + 1) by omega]
        exact holds'.close_item
      have list := item.close_list
      rw [show depth + more + 1 = depth + 1 + more by omega] at list
      exact ih list

/-- Where all containers go on, none is closed. -/
theorem closeTo_all (holds : draft.HoldsLists source false depth runs) :
    draft.closeTo (2 * depth) = draft := by
  unfold Draft.closeTo
  rw [holds.isOpen.length_eq]
  simp [closeMany]

/-- A numbered mark continues the list that is open, or begins one. -/
theorem continueList (holds : draft.HoldsLists source inList depth runs) (stop : Nat) :
    (draft.continueList { mark := '.', number := 1, stop }).HoldsLists source true depth runs := by
  have begun (holds : draft.HoldsLists source false depth runs) :
      HoldsLists { draft.enter (.list '.' 1) with afterBlank := false } source true depth runs := by
    refine ⟨.list [] holds.isOpen, holds.blocks_eq, holds.definitions_eq, holds.awaitsContent_eq,
      rfl, ?_⟩
    change Event.runs (shown source draft.frames ++ .enter (.list (some 1)) :: []) = runs
    rw [Event.runs_append_enter _ (by decide), holds.runs_eq]
    exact List.append_nil runs
  obtain ⟨frames, rfl⟩ := holds.exists_frames
  have isOpen := holds.isOpen
  cases isOpen with
  | nil => exact begun holds
  | item blocks outer => exact begun holds
  | list blocks outer => exact holds

/-- An item is opened. -/
theorem enter_item (holds : draft.HoldsLists source true depth runs) :
    (draft.enter (.item 3)).HoldsLists source false (depth + 1) runs := by
  refine ⟨.item [] holds.isOpen, holds.blocks_eq, holds.definitions_eq, holds.awaitsContent_eq,
    holds.afterBlank_eq, ?_⟩
  change Event.runs (shown source draft.frames ++ .enter .item :: []) = runs
  rw [Event.runs_append_enter _ (by decide), holds.runs_eq]
  exact List.append_nil runs

/-- A paragraph in a new item is a run. -/
theorem add_paragraph (holds : draft.HoldsLists source true depth runs) {prose : Prose}
    (nonempty : prose.events source [] ≠ []) :
    ((draft.enter (.item 3)).add (.paragraph prose false)).HoldsLists source false (depth + 1)
      (runs ++ [⟨true, prose.events source []⟩]) := by
  refine ⟨.item [.paragraph prose false] holds.isOpen, holds.blocks_eq, holds.definitions_eq,
    holds.awaitsContent_eq, holds.afterBlank_eq, ?_⟩
  have added : shown source ({ container := .item 3, blocks := [.paragraph prose false] } ::
        draft.frames) =
      shown source draft.frames ++ .enter .item :: (prose.events source []).map .inline := by
    simp [shown, Container.tag, Container.tighten, Block.inTightItem, Event.ofBlocks,
      Event.ofBlock, Event.ofProse]
  refine (congrArg Event.runs added).trans ?_
  rw [Event.runs_append_enter _ (by decide), holds.runs_eq, Event.runs_inlines nonempty]

/-- The document that is left when all lists are closed has the runs that were read. -/
theorem runs_document (holds : draft.HoldsLists source false depth runs) :
    Event.runs (Event.ofBlocks source draft.document.definitions draft.document.blocks) =
      runs := by
  cases depth with
  | zero =>
      obtain ⟨frames, rfl⟩ := holds.exists_frames
      have isOpen := holds.isOpen
      cases isOpen
      exact holds.runs_eq
  | succ depth =>
      have list := (show draft.HoldsLists source false (0 + 1 + depth) runs by
        rwa [Nat.zero_add, Nat.add_comm]).closeTo
      have length := holds.isOpen.length_eq
      have closed : draft.closeTo 0 = (draft.closeTo (2 * 0 + 1)).close := by
        unfold Draft.closeTo
        rw [closeMany_succ, length]
        rfl
      unfold Draft.document
      rw [closed]
      generalize draft.closeTo (2 * 0 + 1) = last at list ⊢
      obtain ⟨frames, rfl⟩ := list.exists_frames
      have isOpen := list.isOpen
      cases isOpen with
      | list blocks outer =>
          cases outer
          have runsEq := list.runs_eq
          rw [← Event.runs_append_leave _ (.list true)] at runsEq
          refine Eq.trans (congrArg Event.runs ?_) runsEq
          change Event.ofBlocks source [] [.list (some 1) (blocks.reverse.map Block.tightItem)] = _
          rw [Event.ofBlocks, Event.ofBlock, Event.ofBlocks, List.append_nil]
          rfl

end HoldsLists

end Draft

end WikiPress.Markdown
