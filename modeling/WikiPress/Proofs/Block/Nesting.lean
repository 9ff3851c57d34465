import WikiPress.Proofs.Block.Documents
import WikiPress.Proofs.Block.Reading
import WikiPress.Proofs.HeadingIds
import WikiPress.TableOfContents

/-!
# Nesting of the tokens of a document

Between two blocks a builder is settled: no hidden paragraph is open, no text is collected
and no literal block or table is being read.  Directly in a list item running text may have
been collected on top of that.  The tokens that the rest of the block adds are then known
up to the hidden paragraph which the collected text will stand in.
-/

namespace WikiPress.BlockBuilder

open Markdown Markdown.Event

/-- Whether a builder stands between two blocks. -/
structure Settled (builder : BlockBuilder) : Prop where
  outside : builder.isInTextBlock = false
  hidden_closed : builder.isHiddenOpen = false
  run_eq_nil : builder.run = []
  literal_eq_none : builder.literal = none
  table_eq_empty : builder.table = {}

variable {base : BlockBuilder}

theorem Settled.extend (settled : Settled base) {added : List Token} {runs : List (Bool × Token)}
    (holds : Token.HoldsRuns added runs) : Settled (base.extend added) :=
  ⟨isInTextBlock_extend holds settled.outside, settled.hidden_closed, settled.run_eq_nil,
    settled.literal_eq_none, settled.table_eq_empty⟩

theorem Settled.closeHidden_eq (settled : Settled base) : base.closeHidden = base := by
  unfold closeHidden
  rw [settled.hidden_closed]
  rfl

/-! ## Collected text -/

/-- The token that opens a hidden paragraph. -/
def hiddenOpener : Token :=
  { Token.block .paragraphOpen "p" .opening with isHidden := true }

/-- The token that closes a hidden paragraph. -/
def hiddenCloser : Token :=
  { Token.block .paragraphClose "p" .closing with isHidden := true }

/-- A builder that has collected events for a hidden paragraph. -/
def withPending (base : BlockBuilder) (pending : List InlineEvent) : BlockBuilder :=
  if pending = [] then base
  else { base.push hiddenOpener with isHiddenOpen := true, run := pending.reverse }

/-- The hidden paragraph of collected events. -/
def hiddenBlock (base : BlockBuilder) (pending : List InlineEvent) : List Token :=
  if pending = [] then [] else [hiddenOpener, base.runToken pending, hiddenCloser]

/-- An event in a list item is collected. -/
theorem step_withPending (settled : Settled base) (pending : List InlineEvent)
    (event : InlineEvent) :
    (base.withPending pending).step (.inline event) = base.withPending (pending ++ [event]) := by
  have collected : pending ++ [event] ≠ [] := by simp
  unfold withPending
  rw [if_neg collected]
  by_cases none : pending = []
  · subst none
    have opens : !base.isInTextBlock && !base.isHiddenOpen && base.run.isEmpty := by
      rw [settled.outside, settled.hidden_closed, settled.run_eq_nil]
      rfl
    rw [if_pos rfl]
    unfold step addInline
    rw [if_pos opens]
    obtain ⟨source, rules, pages, tokens, run, isHiddenOpen, literal, table⟩ := base
    cases settled.run_eq_nil
    rfl
  · rw [if_neg none]
    unfold step addInline
    simp

theorem closeHidden_withPending (settled : Settled base) (pending : List InlineEvent) :
    (base.withPending pending).closeHidden = base.extend (base.hiddenBlock pending) := by
  unfold withPending hiddenBlock
  by_cases none : pending = []
  · rw [if_pos none, if_pos none]
    exact settled.closeHidden_eq
  · rw [if_neg none, if_neg none]
    unfold closeHidden flushRun
    simp only [if_true, List.reverse_reverse]
    obtain ⟨source, rules, pages, tokens, run, isHiddenOpen, literal, table⟩ := base
    cases settled.run_eq_nil
    cases settled.hidden_closed
    rfl

theorem adds_hiddenBlock (base : BlockBuilder) (pending : List InlineEvent) :
    Adds base (runsBehind pending []) (base.hiddenBlock pending) := by
  unfold runsBehind hiddenBlock
  by_cases none : pending = []
  · rw [if_pos none, if_pos none]
    exact .nil base
  · rw [if_neg none, if_neg none]
    have encloses : Encloses hiddenOpener hiddenCloser := ⟨rfl, rfl, rfl, rfl, rfl, rfl⟩
    have block := adds_textBlock base encloses rfl rfl (fun _ => rfl) pending
    have nothingBehind : pending ++ leadingInlines [] = pending := List.append_nil pending
    rw [nothingBehind]
    exact block

theorem settled_hiddenBlock (settled : Settled base) (pending : List InlineEvent) :
    Settled (base.extend (base.hiddenBlock pending)) :=
  settled.extend (adds_hiddenBlock base pending).holdsRuns

/-- Entering a block closes a hidden paragraph. -/
theorem enter_withPending (settled : Settled base) (pending : List InlineEvent) {tag : BlockTag}
    (isBlock : Place.blocks.admits tag = true) :
    (base.withPending pending).enter tag =
      (base.extend (base.hiddenBlock pending)).enter tag := by
  have again := (settled_hiddenBlock settled pending).closeHidden_eq
  rw [← closeHidden_withPending settled pending] at again ⊢
  cases tag with
  | tableHead | tableRow | tableCell => cases isBlock
  | _ =>
      unfold enter
      rw [again]

/-! ## One block -/

/-- A heading, or a paragraph that is not hidden. -/
theorem foldl_textBlock (settled : Settled base) (inlines : List InlineEvent)
    {opener closer : Token} (opens : opener.kind.opensText = true) {tag : BlockTag}
    (entered : base.enter tag = base.closeHidden.push opener)
    (left : ∀ inside : BlockBuilder, inside.leave tag.kind = inside.flushRun.push closer) :
    (Event.inside tag (inlines.map .inline)).foldl step base =
      base.extend [opener, base.runToken inlines, closer] := by
  rw [foldl_inside, left, entered, settled.closeHidden_eq]
  exact flushRun_foldl_inlines opens settled.run_eq_nil inlines closer

/-- The content of a code block or an HTML block is collected. -/
theorem foldl_literals (builder : BlockBuilder) (token : Token) {before : String}
    (reading : builder.literal = some (token.withContent before)) (contents : List String) :
    ∃ content, (contents.map Event.literal).foldl step builder =
      { builder with literal := some (token.withContent content) } := by
  induction contents generalizing builder before with
  | nil =>
      refine ⟨before, ?_⟩
      rw [← reading]
      rfl
  | cons first contents ih =>
      have read : builder.step (.literal first) =
          { builder with literal := some (token.withContent (before ++ first)) } := by
        unfold step addLiteral
        rw [reading]
        rfl
      have stillReading : (builder.step (.literal first)).literal =
          some (token.withContent (before ++ first)) := by
        rw [read]
      obtain ⟨content, restRead⟩ := ih _ stillReading
      refine ⟨content, ?_⟩
      rw [List.map_cons, List.foldl_cons, restRead, read]

/-- A code block or an HTML block is one token. -/
theorem exists_literalBlock (settled : Settled base) {content : List Event}
    (nested : Nested .literal content) {token : Token} {tag : BlockTag}
    (neutral : token.kind.role = .neutral) (apart : token.kind.isApartFromText = true)
    (leaf : token.nesting = .leaf) (childless : token.children = none)
    (entered : base.enter tag = { base.closeHidden with literal := some token })
    (left : ∀ inside : BlockBuilder, inside.leave tag.kind = inside.closeLiteral) :
    ∃ added, (Event.inside tag content).foldl step base = base.extend added ∧
      Adds base (runs content) added := by
  obtain ⟨contents, rfl⟩ := nested.eq_literals
  have reading : ({ base with literal := some token } : BlockBuilder).literal =
      some (token.withContent token.content) := by
    cases token
    rfl
  obtain ⟨collected, read⟩ := foldl_literals _ token reading contents
  refine ⟨[token.withContent collected], ?_, ?_⟩
  · rw [foldl_inside, left, entered, settled.closeHidden_eq, read]
    obtain ⟨source, rules, pages, tokens, run, isHiddenOpen, literal, table⟩ := base
    cases settled.literal_eq_none
    rfl
  · rw [runs_literals]
    exact .leaf neutral apart leaf childless

/-- The token that closes the body of a table, if it has one. -/
def bodyCloser (hasBody : Bool) : List Token :=
  if hasBody then [Token.block .tbodyClose "tbody" .closing] else []

/-- The rows of a table with what closes its body. -/
theorem AddsRows.adds {builder : BlockBuilder} {runs : List Run} {added : List Token}
    {hasBody : Bool} (adds : AddsRows builder runs added hasBody)
    (bodyClosed : builder.table.hasBody = false) :
    Adds builder runs (added ++ bodyCloser hasBody) := by
  refine ⟨?_, ?_, ?_⟩
  · have awaited := adds.awaited
    rw [bodyClosed] at awaited
    change Token.Kind.awaited? [] (added.map Token.kind) = some (bodyStack hasBody) at awaited
    unfold Token.WellNested Token.Kind.WellNested
    rw [List.map_append, Token.Kind.awaited?_append, awaited]
    cases hasBody <;> rfl
  · have closer : Token.HoldsRuns (bodyCloser hasBody) [] := by
      cases hasBody with
      | true => exact .singleton rfl
      | false => exact .nil
    have both := adds.holdsRuns.append closer
    rw [List.append_nil] at both
    exact both
  · intro token member
    rcases List.mem_append.mp member with row | closer
    · exact adds.marked token row
    · cases hasBody with
      | true =>
          rw [List.mem_singleton.mp closer]
          exact ⟨rfl, fun _ => rfl⟩
      | false => cases closer

/-- A table. -/
theorem exists_table (settled : Settled base) (alignments : List Markdown.Alignment)
    {content : List Event} (nested : Nested .table content) :
    ∃ added, (Event.inside (.table alignments) content).foldl step base = base.extend added ∧
      Adds base (runs content) added := by
  let table : TableProgress := { alignments }
  let opener := Token.block .tableOpen "table" .opening
  let closer := Token.block .tableClose "table" .closing
  have entered : base.enter (.table alignments) = (base.extend [opener]).setTable table := by
    unfold enter
    rw [settled.closeHidden_eq]
    rfl
  have empty : ((base.extend [opener]).setTable table).run = [] := settled.run_eq_nil
  obtain ⟨rows, last, read, adds⟩ := exists_rows nested empty rfl
  have inside := (adds.adds rfl).of_setTable.of_extend
  have encloses : Encloses opener closer := ⟨rfl, rfl, rfl, rfl, rfl, rfl⟩
  refine ⟨_, ?_, inside.enclosed encloses rfl rfl⟩
  have left (builder : BlockBuilder) : builder.leave .table =
      (builder.extend (bodyCloser builder.table.hasBody ++ [closer])).setTable {} := by
    unfold leave bodyCloser
    cases builder.table.hasBody <;> rfl
  have unchanged (added : List Token) : (base.extend added).setTable {} = base.extend added := by
    unfold setTable extend
    rw [← settled.table_eq_empty]
  rw [foldl_inside, entered, read, BlockTag.kind, left]
  simp only [setTable_extend, setTable_setTable, extend_extend, unchanged]
  congr 1
  simp [setTable]

/-- A block that holds blocks, if it is known what its content adds. -/
theorem exists_container {content : List Event} {opener closer : Token} {tag : BlockTag}
    (settled : Settled base) (encloses : Encloses opener closer)
    (openerApart : opener.kind.isApartFromText = true)
    (closerApart : closer.kind.isApartFromText = true)
    (entered : base.enter tag = base.closeHidden.push opener)
    (left : ∀ inside : BlockBuilder, inside.leave tag.kind = inside.closeHidden.push closer)
    (inside : ∀ start : BlockBuilder, Settled start →
      ∃ added, (content.foldl step start).closeHidden = start.extend added ∧
        Adds start (runs content) added) :
    ∃ added, (Event.inside tag content).foldl step base = base.extend added ∧
      Adds base (runs content) added := by
  have opened : Settled (base.extend [opener]) := settled.extend (.singleton openerApart)
  obtain ⟨added, read, adds⟩ := inside (base.extend [opener]) opened
  refine ⟨_, ?_, adds.of_extend.enclosed encloses openerApart closerApart⟩
  rw [foldl_inside, left, entered, settled.closeHidden_eq, push_eq_extend, push_eq_extend, read,
    extend_extend, extend_extend]
  rfl

/-- The tags of a list hold no text of their own. -/
theorem isApartFromText_list (first : Option Nat) :
    (listToken first).kind.isApartFromText = true ∧
      (listCloser first).kind.isApartFromText = true := by
  cases first with
  | none => exact ⟨rfl, rfl⟩
  | some first =>
      unfold listToken
      by_cases one : first = 1
      · simp only [if_pos one]
        exact ⟨rfl, rfl⟩
      · simp only [if_neg one]
        exact ⟨rfl, rfl⟩

/-- A block, if it is known what its content adds where it holds blocks. -/
theorem exists_block {tag : BlockTag} (isBlock : Place.blocks.admits tag = true)
    {content : List Event} (nested : Nested tag.place content) (settled : Settled base)
    (inside : tag.place.holdsBlocks = true → ∀ start : BlockBuilder, Settled start →
      ∃ added, (content.foldl step start).closeHidden = start.extend added ∧
        Adds start (runs content) added) :
    ∃ added, (Event.inside tag content).foldl step base = base.extend added ∧
      Adds base (runs (Event.inside tag content)) added := by
  have runs_of_text (inlines : List InlineEvent) (isText : tag.place = .text) :
      runs (Event.inside tag (inlines.map .inline)) = [⟨false, inlines⟩] := by
    have alone := runs_inside_text isText inlines []
    rw [List.append_nil] at alone
    exact alone
  have runs_of_other (notText : tag.place ≠ .text) :
      runs (Event.inside tag content) = runs content := by
    have alone := runs_inside notText content []
    rw [List.append_nil] at alone
    exact alone.trans (List.append_nil _)
  cases tag with
  | tableHead | tableRow | tableCell => cases isBlock
  | paragraph =>
      obtain ⟨inlines, rfl⟩ := nested.eq_inlines
      let opener := Token.block .paragraphOpen "p" .opening
      let closer := Token.block .paragraphClose "p" .closing
      have encloses : Encloses opener closer := ⟨rfl, rfl, rfl, rfl, rfl, rfl⟩
      rw [runs_of_text inlines rfl]
      exact ⟨_, foldl_textBlock settled inlines rfl rfl fun _ => rfl,
        adds_textBlock base encloses rfl rfl nofun inlines⟩
  | heading level attributes =>
      obtain ⟨inlines, rfl⟩ := nested.eq_inlines
      obtain ⟨kindEq, _, shown, _⟩ := headingToken_sameBut level attributes
      have opens : (headingToken level attributes).kind.opensText = true := by
        rw [kindEq]
        rfl
      have block := adds_textBlock base (encloses_heading level attributes) opens shown.symm
        (fun hidden => by rw [shown] at hidden; cases hidden) inlines
      rw [shown] at block
      rw [runs_of_text inlines rfl]
      exact ⟨_, foldl_textBlock settled inlines opens rfl fun _ => rfl, block⟩
  | quote =>
      rw [runs_of_other nofun]
      have encloses : Encloses (Token.block .blockquoteOpen "blockquote" .opening)
          (Token.block .blockquoteClose "blockquote" .closing) := ⟨rfl, rfl, rfl, rfl, rfl, rfl⟩
      exact exists_container settled encloses rfl rfl rfl (fun _ => rfl) (inside rfl)
  | code info =>
      rw [runs_of_other nofun]
      cases info <;>
        exact exists_literalBlock settled nested rfl rfl rfl rfl rfl fun _ => rfl
  | html =>
      rw [runs_of_other nofun]
      exact exists_literalBlock settled nested rfl rfl rfl rfl rfl fun _ => rfl
  | list first =>
      rw [runs_of_other nofun]
      obtain ⟨openerApart, closerApart⟩ := isApartFromText_list first
      have left (builder : BlockBuilder) : builder.leave (.list first.isSome) =
          builder.closeHidden.push (listCloser first) := by
        cases first <;> rfl
      exact exists_container settled (encloses_list first) openerApart closerApart rfl left
        (inside rfl)
  | item =>
      rw [runs_of_other nofun]
      have encloses : Encloses (Token.block .listItemOpen "li" .opening)
          (Token.block .listItemClose "li" .closing) := ⟨rfl, rfl, rfl, rfl, rfl, rfl⟩
      exact exists_container settled encloses rfl rfl rfl (fun _ => rfl) (inside rfl)
  | table alignments =>
      rw [runs_of_other nofun]
      exact exists_table settled alignments nested

/-! ## Many blocks -/

theorem admits_of_holdsBlocks {place : Place} (holdsBlocks : place.holdsBlocks = true)
    {tag : BlockTag} (admits : place.admits tag = true) : Place.blocks.admits tag = true := by
  cases place <;> cases holdsBlocks <;> cases tag <;> first | rfl | exact admits

/-- An event that is no running text ends the hidden paragraph in front of it. -/
theorem exists_added_behindHidden (settled : Settled base) (pending : List InlineEvent)
    {event : Event} {rest : List Event} (other : event.inline? = none)
    (entered : (base.withPending pending).step event =
      (base.extend (base.hiddenBlock pending)).step event)
    (fromSettled : ∀ start : BlockBuilder, Settled start →
      ∃ added, ((event :: rest).foldl step start).closeHidden = start.extend added ∧
        Adds start (runs (event :: rest)) added) :
    ∃ added, ((event :: rest).foldl step (base.withPending pending)).closeHidden =
        base.extend added ∧
      Adds base (runsBehind pending (event :: rest)) added := by
  obtain ⟨added, read, adds⟩ := fromSettled _ (settled_hiddenBlock settled pending)
  refine ⟨base.hiddenBlock pending ++ added, ?_, ?_⟩
  · rw [List.foldl_cons, entered, ← extend_extend]
    exact read
  · rw [runsBehind_of_inline?_eq_none other]
    exact (adds_hiddenBlock base pending).append adds.of_extend

/-- An event that is written as one token, if it is known what is added behind it. -/
theorem exists_added_leaf {event : Event} {rest : List Event} {token : Token}
    (leaf : Adds base [] [token]) (written : base.step event = base.extend [token])
    (noRun : runs (event :: rest) = runs rest)
    (behind : ∃ added, (rest.foldl step (base.extend [token])).closeHidden =
        (base.extend [token]).extend added ∧
      Adds (base.extend [token]) (runs rest) added) :
    ∃ added, ((event :: rest).foldl step base).closeHidden = base.extend added ∧
      Adds base (runs (event :: rest)) added := by
  obtain ⟨added, read, adds⟩ := behind
  refine ⟨token :: added, ?_, ?_⟩
  · rw [List.foldl_cons, written]
    exact read.trans (extend_extend base [token] added)
  · rw [noRun]
    exact leaf.append adds.of_extend

/-- What events add where blocks stand, behind collected text: the collected text goes
into the first run. -/
theorem exists_added {place : Place} {events : List Event} (nested : Nested place events)
    (holdsBlocks : place.holdsBlocks = true) (settled : Settled base)
    (pending : List InlineEvent) :
    ∃ added, (events.foldl step (base.withPending pending)).closeHidden = base.extend added ∧
      Adds base (runsBehind pending events) added := by
  induction nested generalizing base pending with
  | nil place =>
      exact ⟨_, closeHidden_withPending settled pending, adds_hiddenBlock base pending⟩
  | @block place tag content rest admits inside behind insideIh behindIh =>
      have isBlock := admits_of_holdsBlocks holdsBlocks admits
      refine exists_added_behindHidden settled pending rfl
        (enter_withPending settled pending isBlock) ?_
      intro start startSettled
      obtain ⟨block, read, adds⟩ := exists_block isBlock inside startSettled
        fun holdsBlocks inner innerSettled => insideIh holdsBlocks innerSettled []
      obtain ⟨added, restRead, restAdds⟩ :=
        behindIh holdsBlocks (startSettled.extend adds.holdsRuns) []
      refine ⟨block ++ added, ?_, ?_⟩
      · change ((Event.inside tag content ++ rest).foldl step start).closeHidden = _
        rw [List.foldl_append, read, ← extend_extend]
        exact restRead
      · have split : runs (Event.inside tag content ++ rest) =
            runs (Event.inside tag content) ++ runs rest := runs_append_inside tag content rest
        change Adds start (runs (Event.inside tag content ++ rest)) _
        rw [split]
        exact adds.append restAdds.of_extend
  | inline event holdsText behind ih =>
      rw [List.foldl_cons, step_withPending settled, runsBehind_inline]
      exact ih holdsBlocks settled (pending ++ [event])
  | @thematicBreak place rest _ behind ih =>
      have entered : (base.withPending pending).step .thematicBreak =
          (base.extend (base.hiddenBlock pending)).step .thematicBreak := by
        have again := (settled_hiddenBlock settled pending).closeHidden_eq
        rw [← closeHidden_withPending settled pending] at again ⊢
        unfold step
        rw [again]
      refine exists_added_behindHidden settled pending rfl entered ?_
      intro start startSettled
      have rule : Adds start [] [Token.block .hr "hr" .leaf] := .leaf rfl rfl rfl rfl
      have written : start.step .thematicBreak = start.extend [Token.block .hr "hr" .leaf] := by
        unfold step
        rw [startSettled.closeHidden_eq, push_eq_extend]
      exact exists_added_leaf rule written rfl
        (ih holdsBlocks (startSettled.extend rule.holdsRuns) [])
  | @literal place content rest _ behind ih =>
      have noLiteral : (base.withPending pending).literal = none := by
        unfold withPending
        split
        · exact settled.literal_eq_none
        · exact settled.literal_eq_none
      have entered : (base.withPending pending).step (.literal content) =
          (base.extend (base.hiddenBlock pending)).step (.literal content) := by
        have again := (settled_hiddenBlock settled pending).closeHidden_eq
        have stillNone := (settled_hiddenBlock settled pending).literal_eq_none
        rw [← closeHidden_withPending settled pending] at again stillNone ⊢
        unfold step addLiteral
        rw [noLiteral, stillNone, again]
      refine exists_added_behindHidden settled pending rfl entered ?_
      intro start startSettled
      have html : Adds start [] [(Token.block .htmlBlock "" .leaf).withContent content] :=
        .leaf rfl rfl rfl rfl
      have written : start.step (.literal content) =
          start.extend [(Token.block .htmlBlock "" .leaf).withContent content] := by
        unfold step addLiteral
        rw [startSettled.literal_eq_none, startSettled.closeHidden_eq]
        exact push_eq_extend start _
      exact exists_added_leaf html written rfl
        (ih holdsBlocks (startSettled.extend html.holdsRuns) [])

end WikiPress.BlockBuilder

/-! ## Tables of contents -/

namespace WikiPress.TableOfContents

variable {engine : Engine} {pages : PageSet} {listed : List Entry}

theorem wellNested_listTokens {top requested : Nat}
    (nested : Token.WellNested (engine.tokenize pages (markdown listed top requested))) :
    Token.WellNested (listTokens engine pages listed top requested) := by
  unfold listTokens
  simp only
  split
  · rfl
  · cases tokens : engine.tokenize pages (markdown listed top requested) with
    | nil => rfl
    | cons first rest =>
        rw [tokens] at nested
        exact nested

/-- What takes the place of a token with marks is well nested if the lists are. -/
theorem wellNested_expandToken
    (nested : ∀ requested,
      Token.WellNested (engine.tokenize pages (markdown listed (topLevel listed) requested)))
    (token : Token) :
    expandToken engine pages listed token = [token] ∨
      token.kind.role = .neutral ∧ Token.WellNested (expandToken engine pages listed token) := by
  unfold expandToken
  simp only
  split
  · rename_i hasMark
    obtain ⟨isText, _⟩ := (Bool.and_eq_true_iff).mp hasMark
    have neutral : token.kind.role = .neutral := by
      rcases (Bool.or_eq_true_iff).mp isText with isInline | isHtml
      · rw [of_decide_eq_true isInline]
        rfl
      · rw [of_decide_eq_true isHtml]
        rfl
    refine .inr ⟨neutral, ?_⟩
    induction piecesOf token.content with
    | nil => rfl
    | cons piece pieces ih =>
        rw [List.flatMap_cons]
        refine Token.WellNested.append ?_ ih
        cases piece with
        | mark requested => exact wellNested_listTokens (nested _)
        | text chars =>
            have sameKind : (fragment engine pages token (String.ofList chars)).kind =
                token.kind := by
              unfold fragment
              simp only
              split <;> rfl
            refine Token.wellNested_of_neutral ?_
            intro copy member
            rw [List.mem_singleton.mp member, sameKind]
            exact neutral
  · exact .inl rfl

theorem wellNested_expand {tokens : List Token} (nested : Token.WellNested tokens)
    (lists : ∀ requested, Token.WellNested (engine.tokenize pages
      (markdown (entries tokens) (topLevel (entries tokens)) requested))) :
    Token.WellNested (expand engine pages tokens) :=
  nested.flatMap fun token _ => wellNested_expandToken lists token

end WikiPress.TableOfContents

/-! ## Documents -/

namespace WikiPress.BlockBuilder

open Markdown Markdown.Event TableOfContents

/-- What the tokens of nested events are. -/
theorem adds_tokensOf (source : String) (rules : List InlineRule) (pages : PageSet)
    {events : List Event} (nested : Nested .blocks events) :
    Adds { source, rules, pages } (runs events) (tokensOf source rules pages events) := by
  let builder : BlockBuilder := { source, rules, pages }
  have settled : Settled builder := ⟨rfl, rfl, rfl, rfl, rfl⟩
  obtain ⟨added, read, adds⟩ := exists_added nested rfl settled []
  have tokensEq : tokensOf source rules pages events = added := by
    change ((events.foldl step (builder.withPending [])).closeHidden).tokens.reverse = added
    rw [read]
    simp [extend, builder]
  rw [tokensEq]
  exact adds

/-- The tokens of nested events are well nested, and each says of itself what it does.
Every paragraph, heading and cell holds one inline token, every stretch of text that stands
directly in a list item is the inline token of a hidden paragraph of its own, and there is
no inline event outside these.  Replacing the marks for a table of contents keeps the
nesting, whatever attributes the tokens have been given. -/
theorem tokensOf_nested (engine : Engine) (pages : PageSet) (source : String)
    {events : List Event} (nested : Nested .blocks events) :
    let builder : BlockBuilder := { source, rules := engine.rules, pages }
    let tokens := tokensOf source engine.rules pages events
    Token.WellNested tokens ∧
      (∀ token ∈ tokens, token.IsMarked) ∧
      Token.HoldsRuns tokens (builder.runTokens (runs events)) ∧
      (runs events).flatMap Run.events = events.filterMap inline? ∧
      ∀ annotated : List Token, annotated.map Token.kind = tokens.map Token.kind →
        (∀ requested, Token.WellNested (engine.tokenize pages
          (markdown (entries annotated) (topLevel (entries annotated)) requested))) →
        Token.WellNested (expand engine pages annotated) := by
  intro builder tokens
  have adds : Adds builder (runs events) tokens :=
    adds_tokensOf source engine.rules pages nested
  refine ⟨adds.wellNested, adds.marked, adds.holdsRuns, flatMap_runs events, ?_⟩
  intro annotated sameKinds lists
  have annotatedNested : Token.WellNested annotated := by
    unfold Token.WellNested
    rw [sameKinds]
    exact adds.wellNested
  exact wellNested_expand annotatedNested lists

/-- The events of a list item whose text is divided by a quote. -/
def dividedItem : List Event :=
  inside (.list none) (inside .item
    (.inline ⟨⟨2, 3⟩, .text "a"⟩ ::
      (inside .quote (inside .paragraph [.inline ⟨⟨8, 9⟩, .text "b"⟩]) ++
        [.inline ⟨⟨13, 14⟩, .text "c"⟩])))

theorem nested_dividedItem : Nested .blocks dividedItem := by
  have quoted : Nested .blocks (inside .paragraph [.inline ⟨⟨8, 9⟩, .text "b"⟩]) :=
    .inside rfl (.inline _ rfl (.nil .text))
  have behind : Nested .item [.inline ⟨⟨13, 14⟩, .text "c"⟩] := .inline _ rfl (.nil .item)
  exact .inside rfl (.inside rfl (.inline _ rfl (.block rfl quoted behind)))

theorem tokensOf_nested_dividedItem :
    let tokens := tokensOf "- a\n  > b\n\n  c\n" Engine.wiki.rules ⟨[]⟩ dividedItem
    tokens.map (fun token => (token.kind, token.isHidden)) =
        [(.bulletListOpen, false), (.listItemOpen, false),
          (.paragraphOpen, true), (.inline, false), (.paragraphClose, true),
          (.blockquoteOpen, false),
          (.paragraphOpen, false), (.inline, false), (.paragraphClose, false),
          (.blockquoteClose, false),
          (.paragraphOpen, true), (.inline, false), (.paragraphClose, true),
          (.listItemClose, false), (.bulletListClose, false)] ∧
      (tokens.filter fun token => token.kind = .inline).map (fun token =>
          (token.content, token.children.map (List.map Token.content))) =
        [("a", some ["a"]), ("b", some ["b"]), ("c", some ["c"])] ∧
      (runs dividedItem).map Run.isBare = [true, false, true] ∧
      Token.WellNested tokens ∧
      Token.WellNested (expand Engine.wiki ⟨[]⟩ tokens) := by
  intro tokens
  obtain ⟨wellNested, _, _, _, expanded⟩ := tokensOf_nested Engine.wiki ⟨[]⟩
    "- a\n  > b\n\n  c\n" nested_dividedItem
  refine ⟨by decide +kernel, by decide +kernel, by decide, wellNested, expanded tokens rfl ?_⟩
  have noHeadings : entries tokens = [] := by decide +kernel
  rw [noHeadings]
  intro requested
  rfl

end WikiPress.BlockBuilder

namespace WikiPress

open Markdown

/-- The tokens of every document are well nested. -/
theorem Engine.wellNested_tokenize (engine : Engine) (pages : PageSet) (text : String) :
    Token.WellNested (engine.tokenize pages text) := by
  unfold Engine.tokenize Token.WellNested
  rw [HeadingId.map_kind_annotate]
  exact (BlockBuilder.adds_tokensOf text engine.rules pages (Event.nested_ofText text)).wellNested

/-- They still are when the marks for a table of contents have been replaced. -/
theorem TableOfContents.wellNested_expand_tokenize (engine : Engine) (pages : PageSet)
    (text : String) :
    Token.WellNested (expand engine pages (engine.tokenize pages text)) :=
  wellNested_expand (engine.wellNested_tokenize pages text) fun _ =>
    engine.wellNested_tokenize pages _

end WikiPress
