import WikiPress.Proofs.Block.Nesting
import WikiPress.Proofs.HeadingIds
import WikiPress.Proofs.TableOfContents.Lines

/-!
# The list of a table of contents

Whatever the headings of a document are called, the Markdown of their list begins with the mark
`1. ` and a bracket.  So it is read as a document whose first block is a numbered list: reading
on neither closes that list in front of anything else nor puts anything before it.
-/

namespace WikiPress

namespace Markdown

/-! ## Drafts that begin with a list -/

theorem OpenContainer.exists_close_eq {frame : OpenContainer}
    (isList : frame.container = .list '.' 1) : ∃ items, frame.close = .list (some 1) items := by
  unfold OpenContainer.close
  rw [isList]
  exact ⟨_, rfl⟩

/-- Whether the first block of a draft is a list that is numbered from one, or will be when it
is closed. -/
inductive Draft.BeginsWithList (draft : Draft) : Prop where
  | closed {items : List Block} (isFirst : draft.blocks.getLast? = some (.list (some 1) items))
  | isOpen {frame : OpenContainer} (noBlocks : draft.blocks = [])
      (isFirst : draft.frames.getLast? = some frame) (isList : frame.container = .list '.' 1)

namespace Draft.BeginsWithList

variable {draft : Draft}

theorem add (begins : draft.BeginsWithList) (block : Block) : (draft.add block).BeginsWithList := by
  unfold Draft.add
  cases begins with
  | @closed items isFirst =>
      cases draft.frames with
      | nil =>
          have isFirst : (block :: draft.blocks).getLast? = some (.list (some 1) items) := by
            rw [List.getLast?_cons, isFirst]
            rfl
          exact .closed isFirst
      | cons frame frames => exact .closed isFirst
  | isOpen noBlocks isFirst isList =>
      cases framesEq : draft.frames with
      | nil =>
          rw [framesEq] at isFirst
          cases isFirst
      | cons frame frames =>
          rw [framesEq] at isFirst
          cases frames with
          | nil =>
              cases isFirst
              exact .isOpen noBlocks rfl isList
          | cons outer frames =>
              rw [List.getLast?_cons_cons] at isFirst
              exact .isOpen noBlocks (List.getLast?_cons_cons.trans isFirst) isList

theorem enter (begins : draft.BeginsWithList) (container : Container) :
    (draft.enter container).BeginsWithList := by
  cases begins with
  | closed isFirst => exact .closed isFirst
  | isOpen noBlocks isFirst isList =>
      refine .isOpen noBlocks ?_ isList
      change (_ :: draft.frames).getLast? = _
      rw [List.getLast?_cons, isFirst]
      rfl

theorem close (begins : draft.BeginsWithList) : draft.close.BeginsWithList := by
  unfold Draft.close
  cases framesEq : draft.frames with
  | nil => exact begins
  | cons frame frames =>
      have outside (awaitsContent : Bool) (block : Block)
          (begins : BeginsWithList { draft with frames, awaitsContent }) :
          (Draft.add { draft with frames, awaitsContent } block).BeginsWithList := begins.add block
      cases begins with
      | closed isFirst => exact outside _ _ (.closed isFirst)
      | isOpen noBlocks isFirst isList =>
          rw [framesEq] at isFirst
          cases frames with
          | nil =>
              cases isFirst
              obtain ⟨items, closed⟩ := OpenContainer.exists_close_eq isList
              have isFirst : (frame.close :: draft.blocks).getLast? =
                  some (.list (some 1) items) := by
                rw [noBlocks]
                exact congrArg some closed
              exact .closed isFirst
          | cons outer frames =>
              rw [List.getLast?_cons_cons] at isFirst
              exact outside _ _ (.isOpen noBlocks isFirst isList)

end Draft.BeginsWithList

/-- Similar containers have similar outermost ones. -/
theorem OpenContainer.exists_similar_of_getLast? {frames others : List OpenContainer}
    (similar : List.Forall₂ OpenContainer.Similar frames others) {frame : OpenContainer}
    (isLast : frames.getLast? = some frame) :
    ∃ other, others.getLast? = some other ∧ frame.Similar other := by
  induction similar with
  | nil => cases isLast
  | cons same rest ih =>
      cases rest with
      | nil =>
          cases isLast
          exact ⟨_, rfl, same⟩
      | cons next rest =>
          rw [List.getLast?_cons_cons] at isLast ⊢
          exact ih isLast

theorem Draft.kept_beginsWithList : Draft.Kept Draft.BeginsWithList where
  add begins _ := begins.add _
  enter container begins := begins.enter container
  close begins := begins.close
  settle begins blocksEq similar := by
    cases begins with
    | closed isFirst => exact .closed (blocksEq ▸ isFirst)
    | isOpen noBlocks isFirst isList =>
        obtain ⟨other, isFirst, same⟩ := OpenContainer.exists_similar_of_getLast? similar isFirst
        exact .isOpen (blocksEq.trans noBlocks) isFirst (same.isList _ _ isList)

/-! ## Documents that begin with a list -/

@[simp]
theorem Draft.length_frames_add (draft : Draft) (block : Block) :
    (draft.add block).frames.length = draft.frames.length := by
  unfold Draft.add
  split
  · rfl
  · rename_i framesEq
    rw [framesEq]
    rfl

@[simp]
theorem Draft.length_frames_close (draft : Draft) :
    draft.close.frames.length = draft.frames.length - 1 := by
  unfold Draft.close
  split
  · rename_i framesEq
    rw [framesEq]
    rfl
  · rename_i framesEq
    rw [framesEq]
    exact Draft.length_frames_add _ _

@[simp]
theorem Draft.frames_closeTo_zero (draft : Draft) : (draft.closeTo 0).frames = [] := by
  have closed (count : Nat) :
      (draft.closeMany count).frames.length = draft.frames.length - count := by
    induction count generalizing draft with
    | zero => rfl
    | succ count ih =>
        have closed := ih draft.close
        rw [draft.length_frames_close] at closed
        exact closed.trans (by omega)
  apply List.eq_nil_of_length_eq_zero
  unfold Draft.closeTo
  rw [closed]
  omega

theorem Draft.BeginsWithList.exists_blocks_eq {draft : Draft} (begins : draft.BeginsWithList) :
    ∃ items others, draft.document.blocks = .list (some 1) items :: others := by
  have noFrames := draft.frames_closeTo_zero
  have closed := Draft.kept_beginsWithList.closeTo begins 0
  unfold Draft.document
  cases closed with
  | isOpen noBlocks isFirst isList =>
      rw [noFrames] at isFirst
      cases isFirst
  | @closed items isFirst =>
      rw [← List.head?_reverse] at isFirst
      exact ⟨items, _, List.eq_cons_of_mem_head? isFirst⟩

variable {window : Window}

/-- A text that begins with the mark of an item begins with a list. -/
theorem ItemMark.beginsWithList (mark : ItemMark window 0) :
    (readBlocks window (window.stop + 1) {} 0).BeginsWithList := by
  have inside : 0 < window.stop := Window.lt_stop_of_byte? mark.number
  have kept := Draft.kept_beginsWithList
  have opened : (openContainers window (window.stop - 0 + 1) {}
      (LineCursor.ofLine window 0)).1.BeginsWithList := by
    have enough : window.stop - 0 + 1 = window.stop - 1 + 2 := by omega
    rw [enough, LineCursor.ofLine, mark.openContainers_eq]
    exact .isOpen rfl rfl rfl
  have read : (readBlock window {} 0).1.BeginsWithList := kept.readOpened window 0 opened
  unfold readBlocks
  rw [if_pos inside]
  exact kept.readBlocks window read _ _

theorem ItemMark.exists_ofText_eq {text : String} (mark : ItemMark (Window.whole text) 0) :
    ∃ content others, Event.ofText text = Event.inside (.list (some 1)) content ++ others ∧
      Event.Nested .blocks content ∧ Event.Nested .blocks others := by
  let document := Document.ofText text
  let events := Event.ofBlocks (Window.whole text) document.definitions
  obtain ⟨items, blocks, blocksEq⟩ :
      ∃ items blocks, document.blocks = .list (some 1) items :: blocks :=
    mark.beginsWithList.exists_blocks_eq
  have placed : ∀ block ∈ document.blocks, block.Placed .blocks := placed_ofText text
  rw [blocksEq] at placed
  obtain ⟨listPlaced, placed⟩ := List.forall_mem_cons.mp placed
  cases listPlaced with
  | list first inside =>
      refine ⟨events items, events blocks, ?_, Event.nested_ofBlocks _ _ inside,
        Event.nested_ofBlocks _ _ placed⟩
      calc
        Event.ofText text = events (.list (some 1) items :: blocks) := congrArg events blocksEq
        _ = _ := by simp only [events, Event.ofBlocks, Event.ofBlock]

end Markdown

/-! ## Tokens that begin with a list -/

namespace BlockBuilder

open Markdown Markdown.Event

/-- A numbered list and what follows it stand for themselves. -/
theorem exists_tokensOf_list (source : String) (rules : List InlineRule) (pages : PageSet)
    {content others : List Event} (nested : Nested .blocks content)
    (othersNested : Nested .blocks others) :
    ∃ inner behind,
      tokensOf source rules pages (Event.inside (.list (some 1)) content ++ others) =
        listToken (some 1) :: (inner ++ listCloser (some 1) :: behind) ∧
      Token.WellNested inner ∧ Token.WellNested behind := by
  let builder : BlockBuilder := { source, rules, pages }
  have settled : Settled builder := ⟨rfl, rfl, rfl, rfl, rfl⟩
  let opened := builder.extend [listToken (some 1)]
  have openedSettled : Settled opened := settled.extend (.singleton rfl)
  obtain ⟨inner, innerRead, innerAdds⟩ := exists_added nested rfl openedSettled []
  change (content.foldl step opened).closeHidden = opened.extend inner at innerRead
  let list := listToken (some 1) :: inner ++ [listCloser (some 1)]
  have listRead : (Event.inside (.list (some 1)) content).foldl step builder =
      builder.extend list := by
    rw [foldl_inside]
    change (content.foldl step opened).closeHidden.push (listCloser (some 1)) = _
    rw [innerRead, push_eq_extend, extend_extend, extend_extend]
    rfl
  have listAdds : Adds builder (runs content) list :=
    innerAdds.of_extend.enclosed (encloses_list (some 1)) rfl rfl
  have behindSettled := settled.extend listAdds.holdsRuns
  obtain ⟨behind, behindRead, behindAdds⟩ := exists_added othersNested rfl behindSettled []
  change (others.foldl step (builder.extend list)).closeHidden = _ at behindRead
  refine ⟨inner, behind, ?_, innerAdds.wellNested, behindAdds.wellNested⟩
  change (((Event.inside (.list (some 1)) content ++ others).foldl step
    builder).closeHidden).tokens.reverse = _
  rw [List.foldl_append, listRead, behindRead]
  simp [extend, builder, list]

end BlockBuilder

open Markdown BlockBuilder

/-- The tokens of a text that begins with the mark of an item. -/
theorem Engine.exists_tokenize_eq (engine : Engine) (pages : PageSet) {text : String}
    (mark : ItemMark (Window.whole text) 0) :
    ∃ inner closer behind,
      engine.tokenize pages text = listToken (some 1) :: (inner ++ closer :: behind) ∧
      closer.kind = .orderedListClose ∧ Token.WellNested inner ∧ Token.WellNested behind := by
  obtain ⟨content, others, eventsEq, nested, othersNested⟩ := mark.exists_ofText_eq
  obtain ⟨inner, behind, tokensEq, innerNested, behindNested⟩ :=
    exists_tokensOf_list text engine.rules pages nested othersNested
  rw [← eventsEq] at tokensEq
  -- ids are given to headings only, and change no kind
  have kinds := HeadingId.map_kind_annotate [] (inner ++ listCloser (some 1) :: behind)
  rw [List.map_append, List.map_cons] at kinds
  obtain ⟨annotated, tail, annotatedEq, innerKinds, tailKinds⟩ := List.map_eq_append_iff.mp kinds
  obtain ⟨closer, rest, rfl, closerKind, restKinds⟩ := List.map_eq_cons_iff.mp tailKinds
  refine ⟨annotated, closer, rest, ?_, closerKind, ?_, ?_⟩
  · rw [tokenize, blockTokens, tokensEq, HeadingId.annotate, if_neg (by decide), annotatedEq]
  · unfold Token.WellNested
    rw [innerKinds]
    exact innerNested
  · unfold Token.WellNested
    rw [restKinds]
    exact behindNested

namespace TableOfContents

/-! ## The list -/

/-- Tokens that begin with a table of contents: a numbered list of that class. -/
inductive BeginsWithContents : List Token → Prop where
  | list {opener closer : Token} {inner behind : List Token}
      (isList : opener.kind = .orderedListOpen)
      (isContents : opener.attribute? "class" = some "table-of-contents")
      (closes : closer.kind = .orderedListClose) (innerNested : Token.WellNested inner)
      (behindNested : Token.WellNested behind) :
      BeginsWithContents (opener :: (inner ++ closer :: behind))

variable {entries : List Entry} {top requested : Nat}

theorem markdown_eq_empty (none : (entries.filter fun entry => entry.level ≤ requested) = []) :
    markdown entries top requested = "" := by
  unfold markdown
  rw [none]
  rfl

/-- The Markdown of a list begins with the mark of its first item. -/
theorem itemMark_markdown {entry : Entry} {rest : List Entry}
    (listed : (entries.filter fun entry => entry.level ≤ requested) = entry :: rest) :
    ItemMark (Window.whole (markdown entries top requested)) 0 := by
  have chars : (markdown entries top requested).toList = (line entry 0).toList ++
      ((rest.zip (depths top (some 0) rest)).flatMap fun pair => (line pair.1 pair.2).toList) := by
    unfold markdown
    rw [listed, String.toList_join, List.flatMap_map]
    rfl
  rw [toList_line, Nat.mul_zero, List.replicate_zero, List.nil_append] at chars
  have splits : Text.SplitsAt (markdown entries top requested) 0 [] _ := ⟨chars, rfl⟩
  exact .of_splitsAt splits

theorem listTokens_eq_nil (engine : Engine) (pages : PageSet) (top : Nat)
    (none : (entries.filter fun entry => entry.level ≤ requested) = []) :
    listTokens engine pages entries top requested = [] := by
  unfold listTokens
  rw [markdown_eq_empty none]
  rfl

theorem beginsWithContents_listTokens (engine : Engine) (pages : PageSet) (top : Nat)
    {entry : Entry} {rest : List Entry}
    (listed : (entries.filter fun entry => entry.level ≤ requested) = entry :: rest) :
    BeginsWithContents (listTokens engine pages entries top requested) := by
  have mark : ItemMark (Window.whole (markdown entries top requested)) 0 :=
    itemMark_markdown listed
  have notEmpty : (markdown entries top requested).isEmpty = false := by
    rw [Bool.eq_false_iff]
    intro isEmpty
    have inside := Window.lt_stop_of_byte? mark.number
    rw [String.isEmpty_iff.mp isEmpty] at inside
    cases inside
  obtain ⟨inner, closer, behind, tokensEq, closes, innerNested, behindNested⟩ :=
    engine.exists_tokenize_eq pages mark
  have joined : listTokens engine pages entries top requested =
      (listToken (some 1)).joinAttribute "class" "table-of-contents" ::
        (inner ++ closer :: behind) := by
    simp only [listTokens, notEmpty, tokensEq, Bool.false_eq_true, if_false]
  rw [joined]
  exact .list rfl (by decide) closes innerNested behindNested

end TableOfContents

end WikiPress
