import WikiPress.Proofs.Block.Reading

/-!
# Kinds of the tokens of a document

Whatever events a builder reads, it writes tokens of the block structure and running text,
and nothing of the markup that stands inside running text.
-/

namespace WikiPress

open Markdown

/-- Whether a kind is one of the block structure, or running text as a whole. -/
def Token.Kind.isBlockLevel : Token.Kind → Bool
  | text | codeInline | htmlInline | softbreak | hardbreak | emOpen | emClose | strongOpen
  | strongClose | strikethroughOpen | strikethroughClose | linkOpen | linkClose | image => false
  | _ => true

namespace BlockBuilder

/-- The tokens of a builder, and the literal block that it is reading, are block-level. -/
structure WritesBlocks (builder : BlockBuilder) : Prop where
  tokens : ∀ token ∈ builder.tokens, token.kind.isBlockLevel = true
  literal : ∀ token, builder.literal = some token → token.kind.isBlockLevel = true

variable {builder : BlockBuilder}

/-! ## Operations -/

theorem WritesBlocks.push (writes : builder.WritesBlocks) {token : Token}
    (blockLevel : token.kind.isBlockLevel = true) : (builder.push token).WritesBlocks :=
  ⟨List.forall_mem_cons.mpr ⟨blockLevel, writes.tokens⟩, writes.literal⟩

theorem WritesBlocks.openBlock (writes : builder.WritesBlocks) {kind : Token.Kind}
    (blockLevel : kind.isBlockLevel = true) (tag : String) :
    (builder.openBlock kind tag).WritesBlocks :=
  writes.push blockLevel

theorem WritesBlocks.closeBlock (writes : builder.WritesBlocks) {kind : Token.Kind}
    (blockLevel : kind.isBlockLevel = true) (tag : String) :
    (builder.closeBlock kind tag).WritesBlocks :=
  writes.push blockLevel

/-- Nothing depends on the table that is read. -/
theorem WritesBlocks.setTable (writes : builder.WritesBlocks) (table : TableProgress) :
    (builder.setTable table).WritesBlocks :=
  ⟨writes.tokens, writes.literal⟩

theorem WritesBlocks.flushRun (writes : builder.WritesBlocks) : builder.flushRun.WritesBlocks := by
  refine WritesBlocks.push ?_ rfl
  exact ⟨writes.tokens, writes.literal⟩

theorem WritesBlocks.closeHidden (writes : builder.WritesBlocks) :
    builder.closeHidden.WritesBlocks := by
  unfold BlockBuilder.closeHidden
  split
  · refine WritesBlocks.push ?_ rfl
    exact ⟨writes.flushRun.tokens, writes.flushRun.literal⟩
  · exact writes

/-- A literal block is begun. -/
theorem WritesBlocks.begin (writes : builder.WritesBlocks) {token : Token}
    (blockLevel : token.kind.isBlockLevel = true) :
    WritesBlocks { builder with literal := some token } := by
  refine ⟨writes.tokens, fun begun same => ?_⟩
  cases same
  exact blockLevel

theorem WritesBlocks.closeLiteral (writes : builder.WritesBlocks) :
    builder.closeLiteral.WritesBlocks := by
  unfold BlockBuilder.closeLiteral
  split
  · rename_i token reading
    refine WritesBlocks.push ?_ (writes.literal token reading)
    exact ⟨writes.tokens, fun _ none => by cases none⟩
  · exact writes

theorem WritesBlocks.addLiteral (writes : builder.WritesBlocks) (content : String) :
    (builder.addLiteral content).WritesBlocks := by
  unfold BlockBuilder.addLiteral
  split
  · rename_i token reading
    exact writes.begin (writes.literal token reading)
  · exact writes.closeHidden.push rfl

theorem WritesBlocks.addInline (writes : builder.WritesBlocks) (event : InlineEvent) :
    (builder.addInline event).WritesBlocks := by
  unfold BlockBuilder.addInline
  simp only
  split
  · have opened : (BlockBuilder.push { builder with isHiddenOpen := true }
        { Token.block .paragraphOpen "p" .opening with isHidden := true }).WritesBlocks := by
      refine WritesBlocks.push ?_ rfl
      exact ⟨writes.tokens, writes.literal⟩
    exact ⟨opened.tokens, opened.literal⟩
  · exact ⟨writes.tokens, writes.literal⟩

/-! ## Events -/

theorem WritesBlocks.enter (writes : builder.WritesBlocks) (tag : BlockTag) :
    (builder.enter tag).WritesBlocks := by
  cases tag with
  | paragraph | quote | item => exact writes.closeHidden.openBlock rfl _
  | heading level attributes =>
      refine writes.closeHidden.push ?_
      rw [(headingToken_sameBut level attributes).kind_eq]
      rfl
  | code info => exact writes.closeHidden.begin (by cases info <;> rfl)
  | html => exact writes.closeHidden.begin rfl
  | list first =>
      refine writes.closeHidden.push ?_
      cases first with
      | none => rfl
      | some first =>
          unfold listToken
          by_cases one : first = 1
          · simp only [if_pos one]
            rfl
          · simp only [if_neg one]
            rfl
  | table alignments => exact (writes.closeHidden.setTable _).openBlock rfl _
  | tableHead => exact ((writes.setTable _).openBlock rfl _).openBlock rfl _
  | tableRow =>
      unfold BlockBuilder.enter
      simp only
      split
      · exact (writes.setTable _).openBlock rfl _
      · exact ((writes.setTable _).openBlock rfl _).openBlock rfl _
  | tableCell =>
      refine writes.push ?_
      rw [(cellToken_eq builder.table).kind_eq]
      cases builder.table.inHead <;> rfl

theorem WritesBlocks.leave (writes : builder.WritesBlocks) (kind : BlockTag.Kind) :
    (builder.leave kind).WritesBlocks := by
  cases kind with
  | paragraph | heading => exact writes.flushRun.closeBlock rfl _
  | quote | item => exact writes.closeHidden.closeBlock rfl _
  | code | html => exact writes.closeLiteral
  | list isOrdered => cases isOrdered <;> exact writes.closeHidden.closeBlock rfl _
  | table =>
      unfold BlockBuilder.leave
      simp only
      split
      · exact ((writes.closeBlock rfl _).closeBlock rfl _).setTable _
      · exact (writes.closeBlock rfl _).setTable _
  | tableHead => exact ((writes.closeBlock rfl _).closeBlock rfl _).setTable _
  | tableRow => exact writes.closeBlock rfl _
  | tableCell =>
      unfold BlockBuilder.leave
      simp only
      split
      · exact (writes.flushRun.closeBlock rfl _).setTable _
      · exact (writes.flushRun.closeBlock rfl _).setTable _

theorem WritesBlocks.step (writes : builder.WritesBlocks) (event : Event) :
    (builder.step event).WritesBlocks := by
  cases event with
  | enter tag => exact writes.enter tag
  | leave kind => exact writes.leave kind
  | thematicBreak => exact writes.closeHidden.push rfl
  | literal content => exact writes.addLiteral content
  | inline event => exact writes.addInline event

theorem WritesBlocks.foldl (writes : builder.WritesBlocks) (events : List Event) :
    (events.foldl BlockBuilder.step builder).WritesBlocks := by
  induction events generalizing builder with
  | nil => exact writes
  | cons event events ih => exact ih (writes.step event)

end BlockBuilder

/-- Every token of a text is block-level. -/
theorem isBlockLevel_of_mem_blockTokens {rules : List InlineRule} {pages : PageSet}
    {text : String} {token : Token} (member : token ∈ blockTokens rules pages text) :
    token.kind.isBlockLevel = true := by
  have empty : BlockBuilder.WritesBlocks { source := text, rules, pages } := ⟨nofun, nofun⟩
  have written := (empty.foldl (Event.ofText text)).closeHidden
  exact written.tokens token (List.mem_reverse.mp member)

end WikiPress
