import WikiPress.BlockTokens
import WikiPress.Proofs.Block.Events
import WikiPress.Proofs.Token.TextRuns

/-!
# Blocks that are read

What a builder does with the events of a block is told by the tokens that it adds.  Text
blocks, literal blocks and tables hold no blocks of the document in turn, so the tokens of
each are known from its events alone; the state behind them is the state before.
-/

namespace WikiPress.BlockBuilder

open Markdown Markdown.Event

variable {builder : BlockBuilder}

/-! ## Adding tokens -/

/-- A builder with tokens added. -/
def extend (builder : BlockBuilder) (added : List Token) : BlockBuilder :=
  { builder with tokens := added.reverse ++ builder.tokens }

@[simp]
theorem extend_nil (builder : BlockBuilder) : builder.extend [] = builder :=
  rfl

@[simp]
theorem extend_extend (builder : BlockBuilder) (first second : List Token) :
    (builder.extend first).extend second = builder.extend (first ++ second) := by
  simp [extend]

theorem push_eq_extend (builder : BlockBuilder) (token : Token) :
    builder.push token = builder.extend [token] :=
  rfl

/-- The tokens of runs, each with whether its block is hidden. -/
def runTokens (builder : BlockBuilder) (runs : List Run) : List (Bool × Token) :=
  runs.map fun run => (run.isBare, builder.runToken run.events)

/-- Tokens that are added for events with certain runs. -/
structure Adds (builder : BlockBuilder) (runs : List Run) (added : List Token) : Prop where
  wellNested : Token.WellNested added
  holdsRuns : Token.HoldsRuns added (builder.runTokens runs)
  marked : ∀ token ∈ added, token.IsMarked

theorem Adds.nil (builder : BlockBuilder) : Adds builder [] [] :=
  ⟨rfl, .nil, by simp⟩

/-- What is added does not depend on what was added before. -/
theorem Adds.of_extend {before added : List Token} {runs : List Run}
    (adds : Adds (builder.extend before) runs added) : Adds builder runs added :=
  ⟨adds.wellNested, adds.holdsRuns, adds.marked⟩

theorem Adds.append {runs more : List Run} {first second : List Token}
    (adds : Adds builder runs first) (behind : Adds builder more second) :
    Adds builder (runs ++ more) (first ++ second) := by
  refine ⟨adds.wellNested.append behind.wellNested, ?_, ?_⟩
  · unfold runTokens
    rw [List.map_append]
    exact adds.holdsRuns.append behind.holdsRuns
  · intro token member
    rcases List.mem_append.mp member with earlier | later
    · exact adds.marked token earlier
    · exact behind.marked token later

/-- A token that stands alone and has to do with no text. -/
theorem Adds.leaf {token : Token} (neutral : token.kind.role = .neutral)
    (apart : token.kind.isApartFromText = true) (leaf : token.nesting = .leaf)
    (childless : token.children = none) : Adds builder [] [token] := by
  refine ⟨Token.wellNested_of_neutral (by simpa using neutral), .singleton apart, ?_⟩
  intro token member
  rw [List.mem_singleton.mp member]
  exact ⟨by rw [neutral, leaf]; rfl, fun _ => childless⟩

/-- The tokens that open and close a container. -/
structure Encloses (opener closer : Token) : Prop where
  closes : opener.kind.role = .opening closer.kind
  closing : closer.kind.role = .closing
  opener_nesting : opener.nesting = .opening
  closer_nesting : closer.nesting = .closing
  opener_children : opener.children = none
  closer_children : closer.children = none

theorem Encloses.marked {opener closer : Token} (encloses : Encloses opener closer) :
    opener.IsMarked ∧ closer.IsMarked := by
  constructor
  · exact ⟨by rw [encloses.closes, encloses.opener_nesting]; rfl,
      fun _ => encloses.opener_children⟩
  · exact ⟨by rw [encloses.closing, encloses.closer_nesting]; rfl,
      fun _ => encloses.closer_children⟩

theorem Encloses.marked_enclosed {opener closer : Token} (encloses : Encloses opener closer)
    {content : List Token} (marked : ∀ token ∈ content, token.IsMarked) :
    ∀ token ∈ opener :: content ++ [closer], token.IsMarked := by
  obtain ⟨openerMarked, closerMarked⟩ := encloses.marked
  intro token member
  rcases List.mem_append.mp member with inside | last
  · rcases List.mem_cons.mp inside with rfl | within
    · exact openerMarked
    · exact marked token within
  · rw [List.mem_singleton.mp last]
    exact closerMarked

/-- A container that has to do with no text, around tokens. -/
theorem Adds.enclosed {runs : List Run} {added : List Token} (adds : Adds builder runs added)
    {opener closer : Token} (encloses : Encloses opener closer)
    (openerApart : opener.kind.isApartFromText = true)
    (closerApart : closer.kind.isApartFromText = true) :
    Adds builder runs (opener :: added ++ [closer]) := by
  refine ⟨adds.wellNested.enclosed encloses.closes encloses.closing, ?_,
    encloses.marked_enclosed adds.marked⟩
  have inside := adds.holdsRuns.append (.singleton closerApart)
  rw [List.append_nil] at inside
  exact .apart openerApart inside

/-- A block of running text around the token of its run. -/
theorem adds_textBlock (builder : BlockBuilder) {opener closer : Token}
    (encloses : Encloses opener closer)
    (opens : opener.kind.opensText = true) (sameHidden : closer.isHidden = opener.isHidden)
    (isParagraph : opener.isHidden = true → opener.kind = .paragraphOpen)
    (inlines : List InlineEvent) :
    Adds builder [⟨opener.isHidden, inlines⟩] [opener, builder.runToken inlines, closer] := by
  have text : Token.WellNested [builder.runToken inlines] := rfl
  refine ⟨text.enclosed encloses.closes encloses.closing, ?_, ?_⟩
  · exact .block opens rfl encloses.closes sameHidden isParagraph .nil
  · have marked : ∀ token ∈ [builder.runToken inlines], token.IsMarked := by
      intro token member
      rw [List.mem_singleton.mp member]
      exact ⟨rfl, fun other => absurd rfl other⟩
    exact encloses.marked_enclosed marked

/-! ## Text -/

@[simp]
theorem isInTextBlock_push (builder : BlockBuilder) (token : Token) :
    (builder.push token).isInTextBlock = token.kind.opensText := by
  change [Token.Kind.paragraphOpen, .headingOpen, .thOpen, .tdOpen].contains token.kind = _
  cases token.kind <;> rfl

/-- Behind tokens that hold runs no block of running text is open that was not open
before them. -/
theorem isInTextBlock_extend {added : List Token} {runs : List (Bool × Token)}
    (holds : Token.HoldsRuns added runs) (outside : builder.isInTextBlock = false) :
    (builder.extend added).isInTextBlock = false := by
  cases final : added.getLast? with
  | none =>
      rw [List.getLast?_eq_none_iff.mp final]
      exact outside
  | some last =>
      obtain ⟨before, rfl⟩ := List.getLast?_eq_some_iff.mp final
      rw [← extend_extend, ← push_eq_extend, isInTextBlock_push]
      exact holds.opensText_getLast last final

/-- In a block of running text all events are collected. -/
theorem foldl_inlines (inText : builder.isInTextBlock = true) (inlines : List InlineEvent) :
    (inlines.map Event.inline).foldl step builder =
      { builder with run := inlines.reverse ++ builder.run } := by
  induction inlines generalizing builder with
  | nil => rfl
  | cons event inlines ih =>
      have collected : builder.step (.inline event) =
          { builder with run := event :: builder.run } := by
        unfold step addInline
        rw [inText]
        rfl
      have stillInText : (builder.step (.inline event)).isInTextBlock = true := by
        rw [collected]
        exact inText
      rw [List.map_cons, List.foldl_cons, ih stillInText, collected, List.reverse_cons,
        List.append_assoc]
      rfl

/-- What is left behind a block of running text. -/
theorem flushRun_foldl_inlines {opener : Token} (opens : opener.kind.opensText = true)
    (empty : builder.run = []) (inlines : List InlineEvent) (closer : Token) :
    ((inlines.map Event.inline).foldl step (builder.push opener)).flushRun.push closer =
      builder.extend [opener, builder.runToken inlines, closer] := by
  have inText : (builder.push opener).isInTextBlock = true :=
    (isInTextBlock_push builder opener).trans opens
  have pushed : (builder.push opener).run = [] := empty
  rw [foldl_inlines inText, pushed, List.append_nil]
  unfold flushRun
  rw [List.reverse_reverse]
  obtain ⟨source, rules, pages, tokens, run, isHiddenOpen, literal, table⟩ := builder
  cases empty
  rfl

theorem foldl_inside (builder : BlockBuilder) (tag : BlockTag) (content : List Event) :
    (Event.inside tag content).foldl step builder =
      (content.foldl step (builder.enter tag)).leave tag.kind := by
  unfold Event.inside
  rw [List.foldl_cons, List.foldl_append]
  rfl

/-! ## Openers -/

/-- Tokens that differ in their attributes only. -/
structure SameBut (token other : Token) : Prop where
  kind_eq : other.kind = token.kind
  nesting_eq : other.nesting = token.nesting
  isHidden_eq : other.isHidden = token.isHidden
  children_eq : other.children = token.children

theorem SameBut.trans {token other third : Token} (before : SameBut token other)
    (behind : SameBut other third) : SameBut token third :=
  ⟨behind.kind_eq.trans before.kind_eq, behind.nesting_eq.trans before.nesting_eq,
    behind.isHidden_eq.trans before.isHidden_eq, behind.children_eq.trans before.children_eq⟩

theorem headingToken_sameBut (level : Nat) (attributes : HeadingAttributes) :
    SameBut (Token.block .headingOpen (Token.headingTag level) .opening)
      (headingToken level attributes) := by
  have joined : ∀ (classes : List String) (token : Token),
      SameBut token (classes.foldl (fun token name => token.joinAttribute "class" name) token) := by
    intro classes
    induction classes with
    | nil => exact fun token => ⟨rfl, rfl, rfl, rfl⟩
    | cons name classes ih =>
        intro token
        have first : SameBut token (token.joinAttribute "class" name) := ⟨rfl, rfl, rfl, rfl⟩
        exact first.trans (ih _)
  rcases attributes with ⟨id, classes⟩
  cases id with
  | none => exact joined classes _
  | some id =>
      have named (token : Token) : SameBut token (token.addAttribute "id" id) :=
        ⟨rfl, rfl, rfl, rfl⟩
      exact (named _).trans (joined classes _)

theorem encloses_heading (level : Nat) (attributes : HeadingAttributes) :
    Encloses (headingToken level attributes)
      (Token.block .headingClose (Token.headingTag level) .closing) := by
  obtain ⟨kindEq, nestingEq, _, childrenEq⟩ := headingToken_sameBut level attributes
  refine ⟨?_, rfl, nestingEq, rfl, childrenEq, rfl⟩
  rw [kindEq]
  rfl

/-- The closing token of a list. -/
def listCloser : Option Nat → Token
  | none => Token.block .bulletListClose "ul" .closing
  | some _ => Token.block .orderedListClose "ol" .closing

theorem encloses_list (first : Option Nat) : Encloses (listToken first) (listCloser first) := by
  cases first with
  | none => exact ⟨rfl, rfl, rfl, rfl, rfl, rfl⟩
  | some first =>
      unfold listToken
      by_cases one : first = 1
      · simp only [if_pos one]
        exact ⟨rfl, rfl, rfl, rfl, rfl, rfl⟩
      · simp only [if_neg one]
        exact ⟨rfl, rfl, rfl, rfl, rfl, rfl⟩

/-- The closing token of a cell. -/
def cellCloser (inHead : Bool) : Token :=
  if inHead then Token.block .thClose "th" .closing else Token.block .tdClose "td" .closing

theorem cellToken_eq (table : TableProgress) :
    SameBut (if table.inHead then Token.block .thOpen "th" .opening
      else Token.block .tdOpen "td" .opening) (cellToken table) := by
  unfold cellToken
  cases table.cellStyle? <;> exact ⟨rfl, rfl, rfl, rfl⟩

theorem encloses_cell (table : TableProgress) :
    Encloses (cellToken table) (cellCloser table.inHead) ∧
      (cellToken table).kind.opensText = true ∧ (cellToken table).isHidden = false ∧
      (cellCloser table.inHead).isHidden = false := by
  obtain ⟨kindEq, nestingEq, hiddenEq, childrenEq⟩ := cellToken_eq table
  have closer : (cellCloser table.inHead).kind.role = .closing ∧
      (cellCloser table.inHead).nesting = .closing ∧
      (cellCloser table.inHead).children = none ∧ (cellCloser table.inHead).isHidden = false := by
    cases table.inHead <;> exact ⟨rfl, rfl, rfl, rfl⟩
  obtain ⟨closing, closerNesting, closerChildren, closerShown⟩ := closer
  refine ⟨⟨?_, closing, ?_, closerNesting, ?_, closerChildren⟩, ?_, ?_, closerShown⟩
  · rw [kindEq]
    cases table.inHead <;> rfl
  · rw [nestingEq]
    cases table.inHead <;> rfl
  · rw [childrenEq]
    cases table.inHead <;> rfl
  · rw [kindEq]
    cases table.inHead <;> rfl
  · rw [hiddenEq]
    cases table.inHead <;> rfl

/-! ## Tables -/

/-- A builder that reads another table, or another part of its table. -/
def setTable (builder : BlockBuilder) (table : TableProgress) : BlockBuilder :=
  { builder with table }

theorem Adds.of_setTable {table : TableProgress} {added : List Token} {runs : List Run}
    (adds : Adds (builder.setTable table) runs added) : Adds builder runs added :=
  ⟨adds.wellNested, adds.holdsRuns, adds.marked⟩

theorem setTable_extend (builder : BlockBuilder) (table : TableProgress) (added : List Token) :
    (builder.setTable table).extend added = (builder.extend added).setTable table :=
  rfl

@[simp]
theorem setTable_setTable (builder : BlockBuilder) (first second : TableProgress) :
    (builder.setTable first).setTable second = builder.setTable second :=
  rfl

/-- What is left behind a cell. -/
theorem foldl_cell (empty : builder.run = []) (inlines : List InlineEvent) :
    (Event.inside .tableCell (inlines.map .inline)).foldl step builder =
      (builder.extend [cellToken builder.table, builder.runToken inlines,
        cellCloser builder.table.inHead]).setTable
          { builder.table with cell := builder.table.cell + 1 } := by
  obtain ⟨_, opens, _⟩ := encloses_cell builder.table
  have entered : builder.enter .tableCell = builder.push (cellToken builder.table) := rfl
  have inText : (builder.push (cellToken builder.table)).isInTextBlock = true :=
    (isInTextBlock_push builder _).trans opens
  rw [foldl_inside, ← flushRun_foldl_inlines opens empty, entered, foldl_inlines inText]
  unfold cellCloser
  obtain ⟨source, rules, pages, tokens, run, isHiddenOpen, literal, table⟩ := builder
  obtain ⟨alignments, cell, inHead, hasBody⟩ := table
  cases inHead <;> rfl

/-- The cells of a row. -/
theorem exists_cells {content : List Event} (nested : Nested .row content)
    (empty : builder.run = []) :
    ∃ added cell,
      content.foldl step builder =
        (builder.extend added).setTable { builder.table with cell } ∧
      Adds builder (runs content) added := by
  generalize placeEq : Place.row = place at nested
  induction nested generalizing builder with
  | nil place => exact ⟨[], builder.table.cell, rfl, .nil builder⟩
  | @block place tag content rest admits inside behind _ ih =>
      subst placeEq
      cases tag with
      | tableCell =>
          obtain ⟨inlines, rfl⟩ := inside.eq_inlines
          obtain ⟨encloses, opens, shown, closerShown⟩ := encloses_cell builder.table
          have sameHidden := closerShown.trans shown.symm
          have first := adds_textBlock builder encloses opens sameHidden (by simp [shown]) inlines
          have read := foldl_cell empty inlines
          generalize [cellToken builder.table, builder.runToken inlines,
            cellCloser builder.table.inHead] = cell at first read
          obtain ⟨added, last, restEq, adds⟩ := @ih ((builder.extend cell).setTable
            { builder.table with cell := builder.table.cell + 1 }) empty rfl
          refine ⟨cell ++ added, last, ?_, ?_⟩
          · rw [List.foldl_append, read, restEq, ← extend_extend]
            rfl
          · rw [shown] at first
            rw [runs_inside_text rfl]
            exact first.append adds.of_setTable.of_extend
      | _ => cases admits
  | inline event holdsText =>
      subst placeEq
      cases holdsText
  | thematicBreak holdsBlocks =>
      subst placeEq
      cases holdsBlocks
  | literal content allowed =>
      subst placeEq
      rcases allowed with place | holdsBlocks
      · cases place
      · cases holdsBlocks

/-- The closing kind that is awaited in a table which has a body. -/
def bodyStack (hasBody : Bool) : List Token.Kind :=
  if hasBody then [.tbodyClose] else []

/-- Tokens that are added in a table, where a body may be opened and left open. -/
structure AddsRows (builder : BlockBuilder) (runs : List Run) (added : List Token)
    (hasBody : Bool) : Prop where
  awaited : Token.Kind.awaited? (bodyStack builder.table.hasBody) (added.map Token.kind) =
    some (bodyStack hasBody)
  holdsRuns : Token.HoldsRuns added (builder.runTokens runs)
  marked : ∀ token ∈ added, token.IsMarked

theorem Adds.addsRows {runs : List Run} {added : List Token} (adds : Adds builder runs added) :
    AddsRows builder runs added builder.table.hasBody :=
  ⟨Token.Kind.WellNested.awaited? adds.wellNested _, adds.holdsRuns, adds.marked⟩

theorem AddsRows.append {runs more : List Run} {first second : List Token}
    {table : TableProgress} {hasBody : Bool}
    (adds : AddsRows builder runs first table.hasBody)
    (behind : AddsRows ((builder.extend first).setTable table) more second hasBody) :
    AddsRows builder (runs ++ more) (first ++ second) hasBody := by
  refine ⟨?_, ?_, ?_⟩
  · rw [List.map_append, Token.Kind.awaited?_append, adds.awaited]
    exact behind.awaited
  · unfold runTokens
    rw [List.map_append]
    exact adds.holdsRuns.append behind.holdsRuns
  · intro token member
    rcases List.mem_append.mp member with earlier | later
    · exact adds.marked token earlier
    · exact behind.marked token later

/-- The token that opens the body of a table, unless it is open. -/
def bodyOpener (hasBody : Bool) : List Token :=
  if hasBody then [] else [Token.block .tbodyOpen "tbody" .opening]

theorem addsRows_bodyOpener (builder : BlockBuilder) :
    AddsRows builder [] (bodyOpener builder.table.hasBody) true := by
  unfold bodyOpener
  cases hasBody : builder.table.hasBody with
  | true => exact ⟨by rw [hasBody]; rfl, .nil, by simp⟩
  | false =>
      refine ⟨by rw [hasBody]; rfl, .singleton rfl, ?_⟩
      intro token member
      rw [List.mem_singleton.mp member]
      exact ⟨rfl, fun _ => rfl⟩

/-- The tokens around the cells of a row. -/
theorem adds_row {runs : List Run} {cells : List Token} (adds : Adds builder runs cells) :
    Adds builder runs
      (Token.block .trOpen "tr" .opening :: cells ++ [Token.block .trClose "tr" .closing]) :=
  adds.enclosed ⟨rfl, rfl, rfl, rfl, rfl, rfl⟩ rfl rfl

/-- A row of a table, or its head. -/
theorem exists_row {tag : BlockTag} (isRow : Place.table.admits tag = true)
    {content : List Event} (nested : Nested tag.place content) (empty : builder.run = [])
    (behindHead : builder.table.inHead = false) :
    ∃ added table,
      (Event.inside tag content).foldl step builder =
        (builder.extend added).setTable table ∧
      table.inHead = false ∧ AddsRows builder (runs content) added table.hasBody := by
  rw [foldl_inside]
  cases tag with
  | tableHead =>
      let head : TableProgress := { builder.table with inHead := true, cell := 0 }
      have entered : builder.enter .tableHead =
          (builder.extend [Token.block .theadOpen "thead" .opening,
            Token.block .trOpen "tr" .opening]).setTable head := rfl
      have stillEmpty : (builder.enter .tableHead).run = [] := empty
      obtain ⟨cells, cell, read, adds⟩ := exists_cells nested stillEmpty
      rw [entered] at read adds ⊢
      have encloses : Encloses (Token.block .theadOpen "thead" .opening)
          (Token.block .theadClose "thead" .closing) := ⟨rfl, rfl, rfl, rfl, rfl, rfl⟩
      have headAdds := (adds_row adds.of_setTable.of_extend).enclosed encloses rfl rfl
      refine ⟨_, { head with inHead := false, cell }, ?_, rfl, headAdds.addsRows⟩
      have left (inside : BlockBuilder) : inside.leave .tableHead =
          (inside.extend [Token.block .trClose "tr" .closing,
            Token.block .theadClose "thead" .closing]).setTable
              { inside.table with inHead := false } := rfl
      rw [read, BlockTag.kind, left]
      simp only [setTable_extend, setTable_setTable, extend_extend]
      congr 2
      simp
  | tableRow =>
      let row : TableProgress := { builder.table with hasBody := true, cell := 0 }
      have entered : builder.enter .tableRow =
          (builder.extend (bodyOpener builder.table.hasBody ++
            [Token.block .trOpen "tr" .opening])).setTable row := by
        unfold enter bodyOpener
        cases builder.table.hasBody <;> rfl
      have stillEmpty : (builder.enter .tableRow).run = [] := by
        rw [entered]
        exact empty
      obtain ⟨cells, cell, read, adds⟩ := exists_cells nested stillEmpty
      rw [entered] at read adds ⊢
      have inBody : Adds ((builder.extend (bodyOpener builder.table.hasBody)).setTable row)
          (runs content) cells := ⟨adds.wellNested, adds.holdsRuns, adds.marked⟩
      have rowAdds := (adds_row inBody).addsRows
      refine ⟨_, { row with cell }, ?_, behindHead, (addsRows_bodyOpener builder).append rowAdds⟩
      have left (inside : BlockBuilder) : inside.leave .tableRow =
          inside.extend [Token.block .trClose "tr" .closing] := rfl
      rw [read, BlockTag.kind, left]
      simp only [setTable_extend, setTable_setTable, extend_extend]
      congr 2
      simp
  | _ => cases isRow

/-- The rows of a table. -/
theorem exists_rows {content : List Event} (nested : Nested .table content)
    (empty : builder.run = []) (behindHead : builder.table.inHead = false) :
    ∃ added table,
      content.foldl step builder = (builder.extend added).setTable table ∧
      AddsRows builder (runs content) added table.hasBody := by
  generalize placeEq : Place.table = place at nested
  induction nested generalizing builder with
  | nil place => exact ⟨[], builder.table, rfl, (Adds.nil builder).addsRows⟩
  | @block place tag content rest admits inside behind _ ih =>
      subst placeEq
      have notText : tag.place ≠ .text := by
        cases tag with
        | tableHead | tableRow => exact nofun
        | _ => cases admits
      obtain ⟨row, table, read, outside, first⟩ := exists_row admits inside empty behindHead
      obtain ⟨added, last, restEq, adds⟩ :=
        @ih ((builder.extend row).setTable table) empty outside rfl
      refine ⟨row ++ added, last, ?_, ?_⟩
      · rw [List.foldl_append, read, restEq, setTable_extend, setTable_setTable, extend_extend]
      · rw [runs_inside notText]
        exact first.append adds
  | inline event holdsText =>
      subst placeEq
      cases holdsText
  | thematicBreak holdsBlocks =>
      subst placeEq
      cases holdsBlocks
  | literal content allowed =>
      subst placeEq
      rcases allowed with place | holdsBlocks
      · cases place
      · cases holdsBlocks

end WikiPress.BlockBuilder
