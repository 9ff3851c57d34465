import Mathlib.Data.List.Forall2
import WikiPress.Proofs.Block.Events

/-!
# Events of documents

The events of every document are nested.  A paragraph that is not set apart becomes
running text without a block around it, so the one thing to follow is that such paragraphs
stand in list items only: a list is made tight when it is closed, and then only the
paragraphs directly in its items change.
-/

namespace WikiPress.Markdown

/-! ## Blocks -/

/-- Whether a block may stand at a place, if places hold blocks at all: paragraphs that
are not set apart stand in items. -/
inductive Block.Placed : Place → Block → Prop where
  | paragraph {place : Place} (prose : Prose) {isTight : Bool}
      (inItem : isTight = true → place = .item) : Placed place (.paragraph prose isTight)
  | heading {place : Place} (level : Nat) (attributes : HeadingAttributes) (prose : Prose) :
      Placed place (.heading level attributes prose)
  | quote {place : Place} {blocks : List Block}
      (inside : ∀ block ∈ blocks, Placed .blocks block) : Placed place (.quote blocks)
  | list {place : Place} (first : Option Nat) {items : List Block}
      (inside : ∀ item ∈ items, Placed .blocks item) : Placed place (.list first items)
  | item {place : Place} {blocks : List Block}
      (inside : ∀ block ∈ blocks, Placed .item block) : Placed place (.item blocks)
  | code {place : Place} (info : Option String) (content : String) :
      Placed place (.code info content)
  | html {place : Place} (content : String) : Placed place (.html content)
  | thematicBreak {place : Place} : Placed place .thematicBreak
  | table {place : Place} (alignments : List Alignment) (head : List Prose)
      (rows : List (List Prose)) : Placed place (.table alignments head rows)

namespace Block

/-- What may stand between other blocks may stand in an item. -/
theorem Placed.inItem {block : Block} (placed : Placed .blocks block) : Placed .item block := by
  cases placed with
  | paragraph prose inItem => exact .paragraph prose fun _ => rfl
  | heading level attributes prose => exact .heading level attributes prose
  | quote inside => exact .quote inside
  | list first inside => exact .list first inside
  | item inside => exact .item inside
  | code info content => exact .code info content
  | html content => exact .html content
  | thematicBreak => exact .thematicBreak
  | table alignments head rows => exact .table alignments head rows

theorem Placed.inTightItem {block : Block} (placed : Placed .item block) :
    Placed .item block.inTightItem := by
  cases placed with
  | paragraph prose => exact .paragraph prose fun _ => rfl
  | heading level attributes prose => exact .heading level attributes prose
  | quote inside => exact .quote inside
  | list first inside => exact .list first inside
  | item inside => exact .item inside
  | code info content => exact .code info content
  | html content => exact .html content
  | thematicBreak => exact .thematicBreak
  | table alignments head rows => exact .table alignments head rows

theorem Placed.tightItem {block : Block} (placed : Placed .blocks block) :
    Placed .blocks block.tightItem := by
  cases placed with
  | item inside =>
      refine .item ?_
      intro inner member
      obtain ⟨original, originalMember, rfl⟩ := List.mem_map.mp member
      exact (inside original originalMember).inTightItem
  | paragraph prose inItem => exact .paragraph prose inItem
  | heading level attributes prose => exact .heading level attributes prose
  | quote inside => exact .quote inside
  | list first inside => exact .list first inside
  | code info content => exact .code info content
  | html content => exact .html content
  | thematicBreak => exact .thematicBreak
  | table alignments head rows => exact .table alignments head rows

end Block

namespace Event

theorem Nested.append {place : Place} {events rest : List Event} (nested : Nested place events)
    (behind : Nested place rest) : Nested place (events ++ rest) := by
  induction nested with
  | nil place => exact behind
  | @block place tag content rest admits inside _ _ ih =>
      rw [List.append_assoc]
      exact .block admits inside (ih behind)
  | inline event holdsText _ ih => exact .inline event holdsText (ih behind)
  | thematicBreak holdsBlocks _ ih => exact .thematicBreak holdsBlocks (ih behind)
  | literal content allowed _ ih => exact .literal content allowed (ih behind)

theorem Nested.inlines {place : Place} (holdsText : place.holdsText = true)
    (inlines : List InlineEvent) : Nested place (inlines.map .inline) := by
  induction inlines with
  | nil => exact .nil place
  | cons event inlines ih => exact .inline event holdsText ih

theorem Nested.flatMap {α : Type} {place : Place} {events : α → List Event} {parts : List α}
    (nested : ∀ part ∈ parts, Nested place (events part)) :
    Nested place (parts.flatMap events) := by
  induction parts with
  | nil => exact .nil place
  | cons part parts ih =>
      rw [List.flatMap_cons]
      exact (nested part List.mem_cons_self).append
        (ih fun other member => nested other (List.mem_cons_of_mem part member))

variable (source : Window) (definitions : List Definition)

theorem nested_ofRow {tag : BlockTag} (isRow : Place.table.admits tag = true)
    (cells : List Prose) : Nested .table (ofRow source definitions tag cells) := by
  have place : tag.place = .row := by
    cases tag with
    | tableHead | tableRow => rfl
    | _ => cases isRow
  refine .inside isRow ?_
  rw [place]
  exact .flatMap fun cell _ => .inside rfl (.inlines rfl _)

theorem ofBlocks_eq_flatMap (blocks : List Block) :
    ofBlocks source definitions blocks = blocks.flatMap (ofBlock source definitions) := by
  induction blocks with
  | nil => rw [ofBlocks, List.flatMap_nil]
  | cons block blocks ih => rw [ofBlocks, List.flatMap_cons, ih]

theorem nested_ofBlock {place : Place} {block : Block} (placed : block.Placed place)
    (holdsBlocks : place.holdsBlocks = true) :
    Nested place (ofBlock source definitions block) := by
  have admits {place : Place} (holdsBlocks : place.holdsBlocks = true) {tag : BlockTag}
      (isBlock : Place.blocks.admits tag = true) : place.admits tag = true := by
    cases tag with
    | tableHead | tableRow | tableCell => cases isBlock
    | _ => exact holdsBlocks
  induction placed with
  | paragraph prose inItem =>
      rw [ofBlock]
      split
      · rename_i isTight
        exact .inlines (by rw [inItem isTight]; rfl) _
      · exact .inside (admits holdsBlocks rfl) (.inlines rfl _)
  | heading level attributes prose =>
      rw [ofBlock]
      exact .inside (admits holdsBlocks rfl) (.inlines rfl _)
  | quote inside ih =>
      rw [ofBlock, ofBlocks_eq_flatMap]
      exact .inside (admits holdsBlocks rfl) (.flatMap fun block member => ih block member rfl)
  | list first inside ih =>
      rw [ofBlock, ofBlocks_eq_flatMap]
      exact .inside (admits holdsBlocks rfl) (.flatMap fun item member => ih item member rfl)
  | item inside ih =>
      rw [ofBlock, ofBlocks_eq_flatMap]
      exact .inside (admits holdsBlocks rfl) (.flatMap fun block member => ih block member rfl)
  | code info content =>
      rw [ofBlock]
      exact .inside (admits holdsBlocks rfl) (.literal content (.inl rfl) (.nil _))
  | html content =>
      rw [ofBlock]
      exact .inside (admits holdsBlocks rfl) (.literal content (.inl rfl) (.nil _))
  | thematicBreak =>
      rw [ofBlock]
      exact .thematicBreak holdsBlocks (.nil _)
  | table alignments head rows =>
      rw [ofBlock]
      refine .inside (admits holdsBlocks rfl)
        (.append (nested_ofRow source definitions rfl head) ?_)
      exact .flatMap fun row _ => nested_ofRow source definitions rfl row

end Event

/-! ## Documents that are being read -/

/-- Whether all blocks that a container holds may stand between others. -/
def OpenContainer.Placed (frame : OpenContainer) : Prop :=
  ∀ block ∈ frame.blocks, block.Placed .blocks

theorem OpenContainer.Placed.close {frame : OpenContainer} (placed : frame.Placed) :
    frame.close.Placed .blocks := by
  have reversed : ∀ block ∈ frame.blocks.reverse, block.Placed .blocks :=
    fun block member => placed block (List.mem_reverse.mp member)
  unfold OpenContainer.close
  cases frame.container with
  | quote => exact .quote reversed
  | item indent => exact .item fun block member => (reversed block member).inItem
  | list mark first =>
      refine .list _ ?_
      split
      · intro item member
        obtain ⟨original, originalMember, rfl⟩ := List.mem_map.mp member
        exact (reversed original originalMember).tightItem
      · exact reversed

/-- Containers that differ at most in what later lines still settle: whether a list is tight,
and how far the lines of an item are indented. -/
structure OpenContainer.Similar (frame other : OpenContainer) : Prop where
  blocks_eq : other.blocks = frame.blocks
  isList : ∀ mark first, frame.container = .list mark first → other.container = .list mark first

theorem OpenContainer.Similar.refl (frame : OpenContainer) : Similar frame frame :=
  ⟨rfl, fun _ _ same => same⟩

theorem OpenContainer.similar_self (frames : List OpenContainer) :
    List.Forall₂ Similar frames frames :=
  List.forall₂_same.mpr fun frame _ => .refl frame

namespace Draft

/-- What each change of a draft keeps: that a block is added, or a container is opened or
closed, and that anything else changes but the blocks and the containers that hold them. -/
structure Kept (holds : Draft → Prop) : Prop where
  add : ∀ {draft : Draft} {block : Block}, holds draft → block.Placed .blocks →
    holds (draft.add block)
  enter : ∀ {draft : Draft} (container : Container), holds draft → holds (draft.enter container)
  close : ∀ {draft : Draft}, holds draft → holds draft.close
  settle : ∀ {draft other : Draft}, holds draft → other.blocks = draft.blocks →
    List.Forall₂ OpenContainer.Similar draft.frames other.frames → holds other

namespace Kept

variable {holds : Draft → Prop} (kept : Kept holds) {draft : Draft} (held : holds draft)

include kept held

/-- The definitions and the marks of a draft are not looked at. -/
theorem note (definitions : List Definition) (awaitsContent afterBlank : Bool) :
    holds { draft with definitions, awaitsContent, afterBlank } :=
  kept.settle held rfl (OpenContainer.similar_self draft.frames)

theorem closeTo (count : Nat) : holds (draft.closeTo count) := by
  unfold Draft.closeTo
  induction draft.frames.length - count generalizing draft with
  | zero => exact held
  | succ count ih => exact ih (kept.close held)

theorem closeEmptyItem : holds draft.closeEmptyItem := by
  unfold Draft.closeEmptyItem
  extract_lets closed
  have closedHeld : holds closed := by
    simp only [closed]
    split
    · split
      · exact kept.close held
      · exact held
    · exact held
  exact kept.note closedHeld _ _ _

theorem leaveList : holds draft.leaveList := by
  unfold Draft.leaveList
  extract_lets settled left loosened
  have settledHeld : holds settled := kept.closeEmptyItem held
  have leftHeld : holds left := by
    simp only [left]
    split
    · exact kept.close settledHeld
    · exact settledHeld
  -- The list around the block may become loose.
  split
  · refine kept.settle leftHeld rfl ?_
    simp only [loosened]
    split
    · rename_i inner mark first isTight blocks rest framesEq
      rw [framesEq]
      exact .cons (.refl inner)
        (.cons ⟨rfl, fun _ _ same => same⟩ (OpenContainer.similar_self rest))
    · exact OpenContainer.similar_self left.frames
  · exact leftHeld

theorem continueList (mark : ListMark) : holds (draft.continueList mark) := by
  have begun {outer : Draft} (held : holds outer) :
      holds { outer.enter (.list mark.mark mark.number) with afterBlank := false } :=
    kept.note (kept.enter _ held) _ _ _
  have settled := kept.closeEmptyItem held
  unfold Draft.continueList
  simp only
  split
  · exact begun settled
  · rename_i frame rest framesEq
    split
    · split
      · refine kept.settle settled rfl ?_
        rw [framesEq]
        exact .cons ⟨rfl, fun _ _ same => same⟩ (OpenContainer.similar_self rest)
      · exact begun (kept.leaveList settled)
    · exact begun (kept.leaveList settled)

theorem noteBlank : holds draft.noteBlank := by
  unfold Draft.noteBlank
  split
  · exact held
  · rename_i indent isTight blocks rest framesEq
    refine kept.settle held rfl ?_
    rw [framesEq]
    exact .cons ⟨rfl, nofun⟩ (OpenContainer.similar_self rest)
  · exact kept.note held _ _ _

end Kept

/-! ## Placed drafts -/

/-- Whether all blocks of a draft may stand where they are. -/
structure Placed (draft : Draft) : Prop where
  frames : ∀ frame ∈ draft.frames, frame.Placed
  blocks : ∀ block ∈ draft.blocks, block.Placed .blocks

variable {draft : Draft}

theorem Placed.add (placed : Placed draft) {block : Block} (blockPlaced : block.Placed .blocks) :
    Placed (draft.add block) := by
  obtain ⟨frames, blocks⟩ := placed
  unfold Draft.add
  cases framesEq : draft.frames with
  | nil =>
      constructor
      · simp
      · exact List.forall_mem_cons.mpr ⟨blockPlaced, blocks⟩
  | cons frame rest =>
      rw [framesEq] at frames
      obtain ⟨framePlaced, restPlaced⟩ := List.forall_mem_cons.mp frames
      refine ⟨List.forall_mem_cons.mpr ⟨?_, restPlaced⟩, blocks⟩
      exact List.forall_mem_cons.mpr ⟨blockPlaced, framePlaced⟩

theorem Placed.close (placed : Placed draft) : Placed draft.close := by
  unfold Draft.close
  cases framesEq : draft.frames with
  | nil => exact placed
  | cons frame rest =>
      obtain ⟨framePlaced, restPlaced⟩ := List.forall_mem_cons.mp (framesEq ▸ placed.frames)
      have outer (awaitsContent : Bool) : Placed { draft with frames := rest, awaitsContent } :=
        ⟨restPlaced, placed.blocks⟩
      exact (outer _).add framePlaced.close

theorem kept_placed : Kept Placed where
  add placed blockPlaced := placed.add blockPlaced
  enter container placed := ⟨List.forall_mem_cons.mpr ⟨nofun, placed.frames⟩, placed.blocks⟩
  close placed := placed.close
  settle {draft other} placed blocksEq similar := by
    refine ⟨fun frame member => ?_, blocksEq ▸ placed.blocks⟩
    obtain ⟨index, inside, rfl⟩ := List.mem_iff_getElem.mp member
    have insideDraft : index < draft.frames.length := similar.length_eq ▸ inside
    have same := similar.get insideDraft inside
    intro block isBlock
    exact placed.frames _ (List.getElem_mem insideDraft) block (same.blocks_eq ▸ isBlock)

end Draft

/-! ## Reading -/

variable (window : Window)

theorem placed_readLines (containers : List Container) (start fuel lineStart : Nat)
    (atoms : List Atom) (place : Place) :
    (readLines window containers start fuel lineStart atoms).1.Placed place := by
  induction fuel generalizing lineStart atoms with
  | zero => exact .paragraph _ nofun
  | succ fuel ih =>
      unfold readLines
      extract_lets role
      obtain ⟨read, nextLine, lineEnd⟩ := readLine window containers role atoms lineStart
      cases lineEnd with
      | tableHead alignments => exact .table _ _ _
      | _ =>
          dsimp -zeta only
          extract_lets
          split
          · exact .heading _ _ _
          · split
            · exact .paragraph _ nofun
            · exact ih _ _

namespace Draft.Kept

variable {holds : Draft → Prop} (kept : Kept holds) {draft : Draft} (held : holds draft)

include kept held

theorem readDefinitions (fuel : Nat) (cursor : LineCursor) :
    holds (readDefinitions window fuel draft cursor).1 := by
  induction fuel generalizing draft cursor with
  | zero => exact held
  | succ fuel ih =>
      unfold Markdown.readDefinitions
      split
      · exact held
      · rename_i definition behind _
        have defined := kept.note held (Definition.insert draft.definitions definition)
          draft.awaitsContent draft.afterBlank
        simp only
        split
        · exact kept.leaveList defined
        · split
          · exact kept.leaveList defined
          · exact ih defined _

theorem openContainers (fuel : Nat) (cursor : LineCursor) :
    holds (openContainers window fuel draft cursor).1 := by
  induction fuel generalizing draft cursor with
  | zero => exact held
  | succ fuel ih =>
      unfold Markdown.openContainers
      simp only
      split
      · exact held
      · split
        · rename_i mark indent content _
          have entered := kept.enter (.item indent) (kept.continueList held mark)
          split
          · exact kept.note entered _ _ _
          · exact ih entered content
        · split
          · exact ih (kept.enter .quote (kept.leaveList held)) _
          · exact held

theorem readContent (cursor : LineCursor) : holds (readContent window draft cursor).1 := by
  have outside := kept.leaveList held
  unfold Markdown.readContent
  simp only
  split
  · exact kept.note (kept.add outside (.code none _)) _ _ _
  · split
    · exact kept.add outside (.html _)
    · split
      · exact kept.add outside .thematicBreak
      · split
        · split
          · exact kept.add outside (.heading _ _ _)
          · exact kept.add outside (.heading _ _ _)
        · split
          · exact kept.add outside (.code _ _)
          · have read := kept.readDefinitions window held
              (window.stop - cursor.position + 1) (cursor.claimUpTo 4).1
            split
            · rename_i readEq
              rw [readEq] at read
              exact read
            · rename_i readEq
              rw [readEq] at read
              exact kept.add (kept.leaveList read) (placed_readLines window _ _ _ _ _ .blocks)

omit held in
/-- What holds behind the containers that a line opens holds behind its block. -/
theorem readOpened (start : Nat)
    (opened : holds (Markdown.openContainers window (window.stop - start + 1)
      (draft.closeTo ((LineCursor.ofLine window start).enter draft.containers).2)
      ((LineCursor.ofLine window start).enter draft.containers).1).1) :
    holds (readBlock window draft start).1 := by
  unfold Markdown.readBlock
  simp only
  split
  · rename_i openEq
    rw [openEq] at opened
    exact opened
  · rename_i openEq
    rw [openEq] at opened
    split
    · exact kept.noteBlank opened
    · exact kept.readContent window opened _

theorem readBlock (start : Nat) : holds (readBlock window draft start).1 :=
  kept.readOpened window start (kept.openContainers window (kept.closeTo held _) _ _)

theorem readBlocks (fuel start : Nat) : holds (readBlocks window fuel draft start) := by
  induction fuel generalizing draft start with
  | zero => exact held
  | succ fuel ih =>
      unfold Markdown.readBlocks
      split
      · exact ih (kept.readBlock window held start) _
      · exact held

end Draft.Kept

/-- All blocks of a document may stand where they are. -/
theorem placed_ofText (text : String) :
    ∀ block ∈ (Document.ofText text).blocks, block.Placed .blocks := by
  have empty : Draft.Placed {} := ⟨nofun, nofun⟩
  have kept := Draft.kept_placed
  have read := kept.readBlocks (Window.whole text) empty ((Window.whole text).stop + 1) 0
  intro block member
  exact (kept.closeTo read 0).blocks block (List.mem_reverse.mp member)

theorem Event.nested_ofBlocks (source : Window) (definitions : List Definition)
    {blocks : List Block} (placed : ∀ block ∈ blocks, block.Placed .blocks) :
    Event.Nested .blocks (Event.ofBlocks source definitions blocks) := by
  rw [Event.ofBlocks_eq_flatMap]
  exact .flatMap fun block member =>
    Event.nested_ofBlock source definitions (placed block member) rfl

/-- The events of every document are nested. -/
theorem Event.nested_ofText (text : String) : Event.Nested .blocks (Event.ofText text) :=
  Event.nested_ofBlocks _ _ (placed_ofText text)

end WikiPress.Markdown
