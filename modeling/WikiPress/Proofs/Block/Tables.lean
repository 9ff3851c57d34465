import WikiPress.Proofs.Block.Nesting

/-!
# Tables

A table is read with a state of its own: the alignments, the number of the cell in its row,
and whether the head or the body has been entered.  It begins anew with every table, and the
number with every row.  So the tokens of a table are known from its own events, whatever has
been read before it, and in each row the style of a cell is that of its own column.
-/

namespace WikiPress

open Markdown

/-! ## Tables among events -/

namespace Markdown

/-- A table: the alignments of its columns, and the running text in the cells of its head and
of the rows of its body. -/
structure Table where
  alignments : List Alignment
  head : List (List InlineEvent)
  rows : List (List (List InlineEvent))

namespace Event

/-- The events of a cell. -/
def ofCell (text : List InlineEvent) : List Event :=
  inside .tableCell (text.map .inline)

/-- The events of the cells of a row, or of the head. -/
def ofCells (tag : BlockTag) (cells : List (List InlineEvent)) : List Event :=
  inside tag (cells.flatMap ofCell)

/-- The events of a table. -/
def ofTable (table : Table) : List Event :=
  inside (.table table.alignments)
    (ofCells .tableHead table.head ++ table.rows.flatMap (ofCells .tableRow))

/-- Whether an event enters or leaves a table, or a part of one. -/
def isOfTable : Event → Bool
  | .enter (.table _) | .enter .tableHead | .enter .tableRow | .enter .tableCell
  | .leave .table | .leave .tableHead | .leave .tableRow | .leave .tableCell => true
  | _ => false

/-- Events among which certain tables stand, in order, and no other parts of tables. -/
inductive HoldsTables : List Event → List Table → Prop where
  | nil : HoldsTables [] []
  | other {event : Event} {rest : List Event} {tables : List Table}
      (apart : event.isOfTable = false) (behind : HoldsTables rest tables) :
      HoldsTables (event :: rest) tables
  | table {rest : List Event} {tables : List Table} (table : Table)
      (behind : HoldsTables rest tables) :
      HoldsTables (ofTable table ++ rest) (table :: tables)

end Event

end Markdown

/-! ## Tables among tokens -/

namespace Token

/-- A token without the text that it holds. -/
def frame (token : Token) : Token :=
  { token with content := "", children := none }

/-- A container around tokens. -/
def enclosed (opener closer : Kind) (tag : String) (content : List Token) : List Token :=
  block opener tag .opening :: (content ++ [block closer tag .closing])

/-- The tokens up to the first one that closes a table. -/
def throughTableClose : List Token → List Token
  | [] => []
  | token :: rest =>
    token :: if token.kind = .tableClose then [] else throughTableClose rest

/-- The tables among tokens, each from the token that opens it. -/
def tables : List Token → List (List Token)
  | [] => []
  | token :: rest =>
    if token.kind = .tableOpen then (token :: throughTableClose rest) :: tables rest
    else tables rest

/-- Whether a token neither opens nor closes a table. -/
def IsApartFromTables (token : Token) : Prop :=
  token.kind ≠ .tableOpen ∧ token.kind ≠ .tableClose

instance (token : Token) : Decidable token.IsApartFromTables :=
  inferInstanceAs (Decidable (_ ∧ _))

theorem tables_append_of_apart {before : List Token}
    (apart : ∀ token ∈ before, token.IsApartFromTables) (behind : List Token) :
    tables (before ++ behind) = tables behind := by
  induction before with
  | nil => rfl
  | cons token before ih =>
      obtain ⟨here, later⟩ := List.forall_mem_cons.mp apart
      rw [List.cons_append, tables, if_neg here.1, ih later]

theorem throughTableClose_append {inside : List Token}
    (apart : ∀ token ∈ inside, token.IsApartFromTables) {closer : Token}
    (closes : closer.kind = .tableClose) (behind : List Token) :
    throughTableClose (inside ++ closer :: behind) = inside ++ [closer] := by
  induction inside with
  | nil => rw [List.nil_append, throughTableClose, if_pos closes]; rfl
  | cons token inside ih =>
      obtain ⟨here, later⟩ := List.forall_mem_cons.mp apart
      rw [List.cons_append, throughTableClose, if_neg here.2, ih later]
      rfl

/-- A table is found whole, and the tables behind it are found behind it. -/
theorem tables_enclosed_append {content : List Token}
    (apart : ∀ token ∈ content, token.IsApartFromTables) (tag : String) (behind : List Token) :
    tables (enclosed .tableOpen .tableClose tag content ++ behind) =
      enclosed .tableOpen .tableClose tag content :: tables behind := by
  have closes : (block .tableClose tag .closing).kind = .tableClose := rfl
  have others : tables (content ++ block .tableClose tag .closing :: behind) = tables behind := by
    rw [tables_append_of_apart apart, tables, if_neg (by rw [closes]; nofun)]
  have opens : (block .tableOpen tag .opening).kind = .tableOpen := rfl
  unfold enclosed
  rw [List.cons_append, List.append_assoc, List.singleton_append, tables, if_pos opens,
    throughTableClose_append apart closes, others]

theorem forall_mem_enclosed {property : Token → Prop} {opener closer : Kind} {tag : String}
    {content : List Token} (opens : property (block opener tag .opening))
    (inside : ∀ token ∈ content, property token) (closes : property (block closer tag .closing)) :
    ∀ token ∈ enclosed opener closer tag content, property token := by
  intro token member
  rcases List.mem_cons.mp member with rfl | later
  · exact opens
  · rcases List.mem_append.mp later with within | last
    · exact inside token within
    · rw [List.mem_singleton.mp last]
      exact closes

end Token

namespace Markdown.Table

open Token

/-- The tokens of a cell, without its text: it has the style of its alignment, if there is
one. -/
def cellFrame (inHead : Bool) (alignment : Option Alignment) : List Token :=
  let attributes := (alignment.bind Alignment.style?).toList.map fun style => ("style", style)
  let text := Token.ofKind .inline "" .leaf
  if inHead then
    [{ block .thOpen "th" .opening with attributes }, text, block .thClose "th" .closing]
  else
    [{ block .tdOpen "td" .opening with attributes }, text, block .tdClose "td" .closing]

/-- The tokens of a row, or of the row in the head: the cells take the alignments in order. -/
def rowFrame (alignments : List Alignment) (inHead : Bool) (cells : List (List InlineEvent)) :
    List Token :=
  enclosed .trOpen .trClose "tr"
    ((List.range cells.length).flatMap fun column => cellFrame inHead alignments[column]?)

/-- The tokens of the body of a table: without rows there is none. -/
def bodyFrame (table : Table) : List Token :=
  if table.rows.isEmpty then []
  else enclosed .tbodyOpen .tbodyClose "tbody"
    (table.rows.flatMap (rowFrame table.alignments false))

/-- The tokens of a table, without the text of its cells. -/
def frame (table : Table) : List Token :=
  enclosed .tableOpen .tableClose "table"
    (enclosed .theadOpen .theadClose "thead" (rowFrame table.alignments true table.head) ++
      table.bodyFrame)

theorem isApartFromTables_cellFrame (inHead : Bool) (alignment : Option Alignment) :
    ∀ token ∈ cellFrame inHead alignment, token.IsApartFromTables := by
  unfold cellFrame
  generalize (alignment.bind Alignment.style?).toList.map _ = attributes
  cases inHead <;> simp [IsApartFromTables, block, ofKind]

theorem isApartFromTables_rowFrame (alignments : List Alignment) (inHead : Bool)
    (cells : List (List InlineEvent)) :
    ∀ token ∈ rowFrame alignments inHead cells, token.IsApartFromTables := by
  refine forall_mem_enclosed (by decide) ?_ (by decide)
  intro token member
  obtain ⟨column, _, inCell⟩ := List.mem_flatMap.mp member
  exact isApartFromTables_cellFrame inHead _ token inCell

/-- A table is found whole among tokens. -/
@[simp]
theorem tables_frame_append (table : Table) (behind : List Token) :
    tables (table.frame ++ behind) = table.frame :: tables behind := by
  refine tables_enclosed_append ?_ "table" behind
  intro token member
  rcases List.mem_append.mp member with inHead | inBody
  · exact forall_mem_enclosed (by decide) (isApartFromTables_rowFrame _ _ _) (by decide)
      token inHead
  · unfold bodyFrame at inBody
    split at inBody
    · cases inBody
    · refine forall_mem_enclosed (by decide) ?_ (by decide) token inBody
      intro token member
      obtain ⟨row, _, inRow⟩ := List.mem_flatMap.mp member
      exact isApartFromTables_rowFrame _ _ row token inRow

end Markdown.Table

namespace BlockBuilder

open Markdown.Event Markdown.Table

variable {builder : BlockBuilder}

/-! ## Reading a table -/

/-- The tokens of a builder in order, without the text that they hold. -/
def frames (builder : BlockBuilder) : List Token :=
  builder.tokens.reverse.map Token.frame

@[simp]
theorem frames_extend (builder : BlockBuilder) (added : List Token) :
    (builder.extend added).frames = builder.frames ++ added.map Token.frame := by
  simp [frames, extend]

@[simp]
theorem frames_push (builder : BlockBuilder) (token : Token) :
    (builder.push token).frames = builder.frames ++ [token.frame] :=
  frames_extend builder [token]

/-- What is behind events that add certain tokens, apart from text, and leave the table that
is being read in a certain state. -/
structure Reaches (before after : BlockBuilder) (added : List Token) (table : TableProgress) :
    Prop where
  frames_eq : after.frames = before.frames ++ added
  table_eq : after.table = table
  literal_eq : after.literal = before.literal

theorem Reaches.trans {before between after : BlockBuilder} {added more : List Token}
    {first last : TableProgress} (reaches : Reaches before between added first)
    (behind : Reaches between after more last) : Reaches before after (added ++ more) last :=
  ⟨by rw [behind.frames_eq, reaches.frames_eq, List.append_assoc], behind.table_eq,
    behind.literal_eq.trans reaches.literal_eq⟩

theorem Reaches.extend {before after : BlockBuilder} {added : List Token}
    {last : TableProgress} (reaches : Reaches before after added last) (more : List Token) :
    Reaches before (after.extend more) (added ++ more.map Token.frame) last :=
  ⟨by rw [frames_extend, reaches.frames_eq, List.append_assoc], reaches.table_eq,
    reaches.literal_eq⟩

theorem Reaches.setTable {before after : BlockBuilder} {added : List Token}
    {first : TableProgress} (reaches : Reaches before after added first)
    (table : TableProgress) : Reaches before (after.setTable table) added table :=
  ⟨reaches.frames_eq, rfl, reaches.literal_eq⟩

/-- What is added does not depend on the table that was read before. -/
theorem Reaches.of_setTable {after : BlockBuilder} {added : List Token}
    {before last : TableProgress} (reaches : Reaches (builder.setTable before) after added last) :
    Reaches builder after added last :=
  ⟨reaches.frames_eq, reaches.table_eq, reaches.literal_eq⟩

/-- A container is opened and closed around what is added. -/
theorem Reaches.enclosed {opener : Token.Kind} {tag : String} {after : BlockBuilder}
    {added : List Token} {last : TableProgress}
    (reaches : Reaches (builder.openBlock opener tag) after added last) (closer : Token.Kind) :
    Reaches builder (after.closeBlock closer tag) (Token.enclosed opener closer tag added)
      last := by
  have opened : (builder.openBlock opener tag).frames =
      builder.frames ++ [Token.block opener tag .opening] := frames_push builder _
  have closed : (after.closeBlock closer tag).frames =
      after.frames ++ [Token.block closer tag .closing] := frames_push after _
  refine ⟨?_, reaches.table_eq, reaches.literal_eq⟩
  rw [closed, reaches.frames_eq, opened, Token.enclosed]
  simp

theorem frame_cellToken (table : TableProgress) :
    [(cellToken table).frame, Token.ofKind .inline "" .leaf, cellCloser table.inHead] =
      cellFrame table.inHead table.alignments[table.cell]? := by
  unfold cellToken cellFrame TableProgress.cellStyle? cellCloser
  generalize (table.alignments[table.cell]?).bind Alignment.style? = style
  cases table.inHead <;> cases style <;> rfl

/-- A cell takes the alignment of its number, and the next cell has the next number. -/
theorem reaches_cell (builder : BlockBuilder) (text : List InlineEvent) :
    Reaches builder ((ofCell text).foldl step builder)
      (cellFrame builder.table.inHead builder.table.alignments[builder.table.cell]?)
      { builder.table with cell := builder.table.cell + 1 } := by
  obtain ⟨_, opens, _⟩ := encloses_cell builder.table
  have entered : builder.enter .tableCell = builder.push (cellToken builder.table) := rfl
  have inText : (builder.push (cellToken builder.table)).isInTextBlock = true :=
    (isInTextBlock_push builder _).trans opens
  unfold ofCell
  rw [foldl_inside, entered, foldl_inlines inText, ← frame_cellToken]
  unfold cellCloser
  obtain ⟨source, rules, pages, tokens, run, isHiddenOpen, literal, table⟩ := builder
  obtain ⟨alignments, cell, inHead, hasBody⟩ := table
  cases inHead <;> exact ⟨by simp [frames, push]; rfl, rfl, rfl⟩

/-- The cells of a row, from some cell on. -/
theorem reaches_cells (builder : BlockBuilder) (cells : List (List InlineEvent)) :
    Reaches builder ((cells.flatMap ofCell).foldl step builder)
      ((List.range' builder.table.cell cells.length).flatMap fun column =>
        cellFrame builder.table.inHead builder.table.alignments[column]?)
      { builder.table with cell := builder.table.cell + cells.length } := by
  induction cells generalizing builder with
  | nil => exact ⟨(List.append_nil _).symm, rfl, rfl⟩
  | cons text cells ih =>
      have first := reaches_cell builder text
      have others := ih ((ofCell text).foldl step builder)
      rw [first.table_eq] at others
      have both := first.trans others
      rw [List.flatMap_cons, List.foldl_append, List.length_cons, List.range'_succ,
        List.flatMap_cons, Nat.add_comm cells.length, ← Nat.add_assoc]
      exact both

/-- The cells of a row that has been entered. -/
theorem reaches_row (builder : BlockBuilder) (newRow : builder.table.cell = 0)
    (cells : List (List InlineEvent)) :
    Reaches builder
      (((cells.flatMap ofCell).foldl step (builder.openBlock .trOpen "tr")).closeBlock
        .trClose "tr")
      (rowFrame builder.table.alignments builder.table.inHead cells)
      { builder.table with cell := cells.length } := by
  have read := reaches_cells (builder.openBlock .trOpen "tr") cells
  have sameTable : (builder.openBlock .trOpen "tr").table = builder.table := rfl
  rw [sameTable, newRow, ← List.range_eq_range', Nat.zero_add] at read
  exact read.enclosed .trClose

/-- The head of a table. -/
theorem reaches_head (builder : BlockBuilder) (cells : List (List InlineEvent)) :
    Reaches builder ((ofCells .tableHead cells).foldl step builder)
      (Token.enclosed .theadOpen .theadClose "thead"
        (rowFrame builder.table.alignments true cells))
      { builder.table with inHead := false, cell := cells.length } := by
  let entered := builder.setTable { builder.table with inHead := true, cell := 0 }
  let inside := (cells.flatMap ofCell).foldl step
    ((entered.openBlock .theadOpen "thead").openBlock .trOpen "tr")
  have read : (ofCells .tableHead cells).foldl step builder =
      ((inside.closeBlock .trClose "tr").closeBlock .theadClose "thead").setTable
        { inside.table with inHead := false } :=
    foldl_inside builder .tableHead _
  have row := reaches_row (entered.openBlock .theadOpen "thead") rfl cells
  have whole := (row.enclosed .theadClose).of_setTable
  have insideTable : inside.table = { entered.table with cell := cells.length } := whole.table_eq
  rw [read, insideTable]
  exact whole.setTable _

/-- A row of the body, which is opened in front of the first one. -/
theorem reaches_bodyRow (builder : BlockBuilder) (behindHead : builder.table.inHead = false)
    (cells : List (List InlineEvent)) :
    Reaches builder ((ofCells .tableRow cells).foldl step builder)
      (bodyOpener builder.table.hasBody ++ rowFrame builder.table.alignments false cells)
      { builder.table with hasBody := true, cell := cells.length } := by
  let inBody := (builder.extend (bodyOpener builder.table.hasBody)).setTable
    { builder.table with hasBody := true, cell := 0 }
  have entered : builder.enter .tableRow = inBody.openBlock .trOpen "tr" := by
    unfold enter
    simp only [inBody, bodyOpener]
    cases builder.table.hasBody <;> rfl
  have row := reaches_row inBody rfl cells
  have opened : Reaches builder inBody (bodyOpener builder.table.hasBody)
      { builder.table with hasBody := true, cell := 0 } := by
    refine ⟨?_, rfl, rfl⟩
    have same : (bodyOpener builder.table.hasBody).map Token.frame =
        bodyOpener builder.table.hasBody := by
      cases builder.table.hasBody <;> rfl
    rw [← same]
    exact frames_extend builder _
  have whole := opened.trans row
  have inHead : inBody.table.inHead = false := behindHead
  unfold ofCells
  rw [foldl_inside, entered]
  rw [inHead] at whole
  exact whole

/-- The rows of the body. -/
theorem reaches_bodyRows (builder : BlockBuilder) (behindHead : builder.table.inHead = false)
    (rows : List (List (List InlineEvent))) :
    ∃ table, Reaches builder ((rows.flatMap (ofCells .tableRow)).foldl step builder)
        ((if rows.isEmpty then [] else bodyOpener builder.table.hasBody) ++
          rows.flatMap (rowFrame builder.table.alignments false)) table ∧
      table.hasBody = (builder.table.hasBody || !rows.isEmpty) := by
  induction rows generalizing builder with
  | nil => exact ⟨builder.table, ⟨(List.append_nil _).symm, rfl, rfl⟩, (Bool.or_false _).symm⟩
  | cons cells rows ih =>
      have first := reaches_bodyRow builder behindHead cells
      obtain ⟨table, others, hasBody⟩ := ih ((ofCells .tableRow cells).foldl step builder)
        (by rw [first.table_eq]; exact behindHead)
      rw [first.table_eq] at others hasBody
      have noOpener : (if rows.isEmpty then [] else bodyOpener true) = [] := by
        cases rows <;> rfl
      rw [noOpener, List.nil_append] at others
      refine ⟨table, ?_, by rw [hasBody]; simp⟩
      rw [List.flatMap_cons, List.foldl_append, List.flatMap_cons, ← List.append_assoc]
      exact first.trans others

/-- A table adds its own tokens, whatever has been read before, and leaves no trace. -/
theorem reaches_table (builder : BlockBuilder) (table : Table) :
    Reaches builder.closeHidden ((ofTable table).foldl step builder) table.frame {} := by
  let opened := (builder.closeHidden.setTable { alignments := table.alignments }).openBlock
    .tableOpen "table"
  let behindHead := (ofCells .tableHead table.head).foldl step opened
  let inside := (table.rows.flatMap (ofCells .tableRow)).foldl step behindHead
  have left (builder : BlockBuilder) : builder.leave .table =
      ((builder.extend (bodyCloser builder.table.hasBody)).closeBlock .tableClose
        "table").setTable {} := by
    unfold leave bodyCloser
    cases builder.table.hasBody <;> rfl
  have entered : (ofTable table).foldl step builder = inside.leave .table := by
    unfold ofTable
    rw [foldl_inside, List.foldl_append]
    rfl
  have head : Reaches opened behindHead
      (Token.enclosed .theadOpen .theadClose "thead" (rowFrame table.alignments true table.head))
      { alignments := table.alignments, cell := table.head.length } :=
    reaches_head opened table.head
  obtain ⟨last, read, hasBody⟩ := reaches_bodyRows behindHead (by rw [head.table_eq]) table.rows
  have rows : Reaches behindHead inside ((if table.rows.isEmpty then [] else bodyOpener false) ++
      table.rows.flatMap (rowFrame table.alignments false)) last := by
    rw [head.table_eq] at read
    exact read
  have insideBody : inside.table.hasBody = !table.rows.isEmpty := by
    rw [rows.table_eq, hasBody, head.table_eq]
    rfl
  have body : (if table.rows.isEmpty then [] else bodyOpener false) ++
      table.rows.flatMap (rowFrame table.alignments false) ++
        (bodyCloser !table.rows.isEmpty).map Token.frame = table.bodyFrame := by
    unfold bodyFrame Token.enclosed
    cases table.rows <;> rfl
  have whole := (head.trans rows).extend (bodyCloser inside.table.hasBody)
  rw [insideBody, List.append_assoc, body] at whole
  rw [entered, left, insideBody]
  exact ((whole.enclosed .tableClose).setTable {}).of_setTable

/-! ## Reading other events -/

/-- The tables among the tokens of a builder that is not reading one: whatever is added
behind them, they stay. -/
structure HasTables (builder : BlockBuilder) (written : List (List Token)) : Prop where
  tables_append : ∀ behind, Token.tables (builder.frames ++ behind) =
    written ++ Token.tables behind
  literal : ∀ token, builder.literal = some token → token.kind ≠ .tableOpen

variable {written : List (List Token)}

theorem HasTables.push (has : builder.HasTables written) {token : Token}
    (opensNone : token.kind ≠ .tableOpen) : (builder.push token).HasTables written := by
  refine ⟨fun behind => ?_, has.literal⟩
  have frameOpensNone : token.frame.kind ≠ .tableOpen := opensNone
  have passed : Token.tables (token.frame :: behind) = Token.tables behind := by
    rw [Token.tables, if_neg frameOpensNone]
  rw [frames_push, List.append_assoc, List.singleton_append, has.tables_append, passed]

theorem HasTables.flushRun (has : builder.HasTables written) :
    builder.flushRun.HasTables written := by
  have same : HasTables { builder with run := [] } written := ⟨has.tables_append, has.literal⟩
  exact same.push nofun

theorem HasTables.closeHidden (has : builder.HasTables written) :
    builder.closeHidden.HasTables written := by
  unfold BlockBuilder.closeHidden
  split
  · have flushed := has.flushRun
    have closed : HasTables { builder.flushRun with isHiddenOpen := false } written :=
      ⟨flushed.tables_append, flushed.literal⟩
    exact closed.push nofun
  · exact has

/-- A literal block is begun, or goes on. -/
theorem HasTables.setLiteral (has : builder.HasTables written) {token : Token}
    (opensNone : token.kind ≠ .tableOpen) :
    HasTables { builder with literal := some token } written := by
  refine ⟨has.tables_append, fun other same => ?_⟩
  cases same
  exact opensNone

theorem HasTables.closeLiteral (has : builder.HasTables written) :
    builder.closeLiteral.HasTables written := by
  unfold BlockBuilder.closeLiteral
  split
  · rename_i token reading
    have closed : HasTables { builder with literal := none } written :=
      ⟨has.tables_append, nofun⟩
    exact closed.push (has.literal token reading)
  · exact has

theorem HasTables.addLiteral (has : builder.HasTables written) (content : String) :
    (builder.addLiteral content).HasTables written := by
  unfold BlockBuilder.addLiteral
  split
  · rename_i token reading
    exact has.setLiteral (has.literal token reading)
  · exact has.closeHidden.push nofun

theorem HasTables.addInline (has : builder.HasTables written) (event : InlineEvent) :
    (builder.addInline event).HasTables written := by
  unfold BlockBuilder.addInline
  simp only
  split
  · have hidden : HasTables { builder with isHiddenOpen := true } written :=
      ⟨has.tables_append, has.literal⟩
    have opened := @HasTables.push _ _ hidden hiddenOpener nofun
    exact ⟨opened.tables_append, opened.literal⟩
  · exact ⟨has.tables_append, has.literal⟩

theorem HasTables.enter (has : builder.HasTables written) {tag : BlockTag}
    (apart : (Event.enter tag).isOfTable = false) : (builder.enter tag).HasTables written := by
  cases tag with
  | paragraph | quote | item => exact has.closeHidden.push nofun
  | heading level attributes =>
      refine has.closeHidden.push ?_
      rw [(headingToken_sameBut level attributes).kind_eq]
      nofun
  | code info => exact has.closeHidden.setLiteral (by cases info <;> nofun)
  | html => exact has.closeHidden.setLiteral nofun
  | list first =>
      refine has.closeHidden.push fun same => ?_
      have closes := (encloses_list first).closes
      rw [same] at closes
      cases first <;> cases closes
  | table | tableHead | tableRow | tableCell => cases apart

theorem HasTables.leave (has : builder.HasTables written) {kind : BlockTag.Kind}
    (apart : (Event.leave kind).isOfTable = false) : (builder.leave kind).HasTables written := by
  cases kind with
  | paragraph | heading => exact has.flushRun.push nofun
  | quote | item => exact has.closeHidden.push nofun
  | code | html => exact has.closeLiteral
  | list isNumbered => cases isNumbered <;> exact has.closeHidden.push nofun
  | table | tableHead | tableRow | tableCell => cases apart

/-- Events that have nothing to do with tables add none. -/
theorem HasTables.step (has : builder.HasTables written) {event : Event}
    (apart : event.isOfTable = false) : (builder.step event).HasTables written := by
  cases event with
  | enter tag => exact has.enter apart
  | leave kind => exact has.leave apart
  | thematicBreak => exact has.closeHidden.push nofun
  | literal content => exact has.addLiteral content
  | inline event => exact has.addInline event

/-- The events of a table add it. -/
theorem HasTables.table (has : builder.HasTables written) (table : Table) :
    ((ofTable table).foldl BlockBuilder.step builder).HasTables (written ++ [table.frame]) := by
  have reaches := reaches_table builder table
  have closed := has.closeHidden
  refine ⟨fun behind => ?_, by rw [reaches.literal_eq]; exact closed.literal⟩
  rw [reaches.frames_eq, List.append_assoc, closed.tables_append, tables_frame_append,
    List.append_assoc]
  rfl

theorem HasTables.foldl (has : builder.HasTables written) {events : List Event}
    {tables : List Table} (holds : HoldsTables events tables) :
    (events.foldl BlockBuilder.step builder).HasTables (written ++ tables.map Table.frame) := by
  induction holds generalizing builder written with
  | nil =>
      rw [List.map_nil, List.append_nil]
      exact has
  | other apart _ ih => exact ih (has.step apart)
  | table table _ ih =>
      rw [List.foldl_append, List.map_cons, List.append_cons]
      exact ih (has.table table)

/-! ## Documents -/

/-- For every table among events there is a table among their tokens, and for nothing else:
its head is a single row of `th` cells, and the rows behind the head are rows of `td` cells in
a body, which is left out if there are none.  In every row the cells have the styles of the
alignments of this table, in order, whatever tables and rows stand before. -/
theorem tables_tokensOf (source : String) (rules : List InlineRule) (pages : PageSet)
    {events : List Event} {tables : List Table} (holds : HoldsTables events tables) :
    Token.tables ((tokensOf source rules pages events).map Token.frame) =
      tables.map Table.frame := by
  have empty : HasTables { source, rules, pages } [] := ⟨fun _ => rfl, nofun⟩
  have read := (empty.foldl holds).closeHidden.tables_append []
  rw [List.append_nil, List.nil_append] at read
  exact read.trans (List.append_nil _)

/-- A table with more cells in a row than it has alignments, and one with a head only. -/
def wideAndBare : List Table :=
  let text : List InlineEvent := [⟨⟨0, 1⟩, .text "a"⟩]
  [⟨[.right, .none], [text], [[text, text, text], []]⟩, ⟨[.center], [text, []], []⟩]

theorem tables_tokensOf_wideAndBare :
    let events := wideAndBare.flatMap fun table => .thematicBreak :: ofTable table
    HoldsTables events wideAndBare ∧
      Token.tables ((tokensOf "a" [] ⟨[]⟩ events).map Token.frame) =
        wideAndBare.map Table.frame ∧
      (wideAndBare.map Table.frame).map (·.map fun token =>
          (token.kind, token.attribute? "style")) =
        [[(.tableOpen, none), (.theadOpen, none), (.trOpen, none),
            (.thOpen, some "text-align:right"), (.inline, none), (.thClose, none),
            (.trClose, none), (.theadClose, none),
            (.tbodyOpen, none), (.trOpen, none),
            (.tdOpen, some "text-align:right"), (.inline, none), (.tdClose, none),
            (.tdOpen, none), (.inline, none), (.tdClose, none),
            (.tdOpen, none), (.inline, none), (.tdClose, none),
            (.trClose, none), (.trOpen, none), (.trClose, none), (.tbodyClose, none),
            (.tableClose, none)],
          [(.tableOpen, none), (.theadOpen, none), (.trOpen, none),
            (.thOpen, some "text-align:center"), (.inline, none), (.thClose, none),
            (.thOpen, none), (.inline, none), (.thClose, none),
            (.trClose, none), (.theadClose, none), (.tableClose, none)]] := by
  intro events
  have holds : HoldsTables events wideAndBare :=
    .other rfl (.table _ (.other rfl (.table _ .nil)))
  exact ⟨holds, tables_tokensOf "a" [] ⟨[]⟩ holds, by decide⟩

end BlockBuilder

end WikiPress
