import WikiPress.Compilation.Rendering
import WikiPress.Proofs.Block.Nesting
import WikiPress.Proofs.Inline.TokenOrigin
import WikiPress.Proofs.Inline.UnitsOfEvents

/-!
# Links of documents

The inline tokens of a document are those of its runs.  Naming headings does not touch
them, and replacing marks for a table of contents puts tokens in their place that were made
the same way from other texts.  So every link of a page is a wiki link that is written in
some text that was read for the page, or it is one of Markdown.
-/

namespace WikiPress

open Markdown

/-- The inline tokens of a document. -/
def Token.inlineTokens (tokens : List Token) : List Token :=
  tokens.flatMap fun token => token.children.getD []

@[simp]
theorem Token.mem_inlineTokens {tokens : List Token} {token : Token} :
    token ∈ inlineTokens tokens ↔
      ∃ outer ∈ tokens, ∃ children, outer.children = some children ∧ token ∈ children := by
  unfold inlineTokens
  rw [List.mem_flatMap]
  constructor
  · rintro ⟨outer, outerMember, member⟩
    cases children : outer.children with
    | none =>
        rw [children] at member
        cases member
    | some inner =>
        rw [children] at member
        exact ⟨outer, outerMember, inner, children, member⟩
  · rintro ⟨outer, outerMember, children, childrenEq, member⟩
    refine ⟨outer, outerMember, ?_⟩
    rw [childrenEq]
    exact member

/-! ## Runs -/

/-- Running text among tokens that hold runs is one of the runs. -/
theorem Token.HoldsRuns.exists_run {tokens : List Token} {runs : List (Bool × Token)}
    (holds : HoldsRuns tokens runs) {token : Token} (member : token ∈ tokens)
    (isInline : token.kind = .inline) : ∃ isHidden, (isHidden, token) ∈ runs := by
  induction holds with
  | nil => cases member
  | apart apart _ ih =>
      rcases List.mem_cons.mp member with rfl | later
      · rw [isInline] at apart
        cases apart
      · exact ih later
  | @block opener text closer rest runs opens _ closes _ _ _ ih =>
      rcases List.mem_cons.mp member with rfl | behindOpener
      · rw [isInline] at opens
        cases opens
      · rcases List.mem_cons.mp behindOpener with rfl | behindText
        · exact ⟨opener.isHidden, List.mem_cons_self⟩
        · rcases List.mem_cons.mp behindText with rfl | later
          · exact absurd isInline (Kind.ne_inline_of_closes closes)
          · obtain ⟨isHidden, found⟩ := ih later
            exact ⟨isHidden, List.mem_cons_of_mem _ found⟩

/-- The inline tokens of a document are those of its runs. -/
theorem Token.HoldsRuns.inlineTokens_eq {tokens : List Token} {runs : List (Bool × Token)}
    (holds : HoldsRuns tokens runs) (marked : ∀ token ∈ tokens, token.IsMarked) :
    inlineTokens tokens = runs.flatMap fun run => run.2.children.getD [] := by
  have childless {token : Token} (isMarked : token.IsMarked) (other : token.kind ≠ .inline) :
      token.children.getD [] = [] := by
    rw [isMarked.childless other]
    rfl
  unfold inlineTokens
  induction holds with
  | nil => rfl
  | @apart token rest runs apart _ ih =>
      obtain ⟨tokenMarked, restMarked⟩ := List.forall_mem_cons.mp marked
      have other : token.kind ≠ .inline := by
        intro isInline
        rw [isInline] at apart
        cases apart
      rw [List.flatMap_cons, childless tokenMarked other]
      exact ih restMarked
  | @block opener text closer rest runs opens _ closes _ _ _ ih =>
      obtain ⟨openerMarked, marked⟩ := List.forall_mem_cons.mp marked
      obtain ⟨_, marked⟩ := List.forall_mem_cons.mp marked
      obtain ⟨closerMarked, restMarked⟩ := List.forall_mem_cons.mp marked
      have openerOther : opener.kind ≠ .inline := by
        intro isInline
        rw [isInline] at opens
        cases opens
      have closerOther := Kind.ne_inline_of_closes closes
      rw [List.flatMap_cons, List.flatMap_cons, List.flatMap_cons, List.flatMap_cons,
        childless openerMarked openerOther, childless closerMarked closerOther, ih restMarked]
      rfl

/-- The tokens inside a token of a text are those of one of its runs. -/
theorem exists_mem_runs_of_children_eq {rules : List InlineRule} {pages : PageSet}
    {text : String} {outer : Token} (member : outer ∈ blockTokens rules pages text)
    {children : List Token} (childrenEq : outer.children = some children) :
    ∃ run ∈ Event.runs (Event.ofText text),
      children = tokenizeRun text pages rules (SourceUnit.ofEvents text run.events) := by
  have adds := BlockBuilder.adds_tokensOf text rules pages (Markdown.Event.nested_ofText text)
  have isInline : outer.kind = .inline := by
    by_contra other
    rw [(adds.marked outer member).childless other] at childrenEq
    cases childrenEq
  obtain ⟨isHidden, found⟩ := adds.holdsRuns.exists_run member isInline
  obtain ⟨run, runMember, runEq⟩ := List.mem_map.mp found
  cases runEq
  cases childrenEq
  exact ⟨run, runMember, rfl⟩

theorem exists_run_of_children_eq {rules : List InlineRule} {pages : PageSet} {text : String}
    {outer : Token} (member : outer ∈ blockTokens rules pages text) {children : List Token}
    (childrenEq : outer.children = some children) :
    ∃ events, children = tokenizeRun text pages rules (SourceUnit.ofEvents text events) := by
  obtain ⟨run, _, tokensEq⟩ := exists_mem_runs_of_children_eq member childrenEq
  exact ⟨run.events, tokensEq⟩

/-- Every inline token of a text is one of a run. -/
theorem exists_run_of_mem_blockTokens {rules : List InlineRule} {pages : PageSet} {text : String}
    {token : Token} (member : token ∈ Token.inlineTokens (blockTokens rules pages text)) :
    ∃ events, token ∈ tokenizeRun text pages rules (SourceUnit.ofEvents text events) := by
  obtain ⟨outer, outerMember, children, childrenEq, inside⟩ := Token.mem_inlineTokens.mp member
  obtain ⟨events, rfl⟩ := exists_run_of_children_eq outerMember childrenEq
  exact ⟨events, inside⟩

/-! ## Links -/

/-- The link that a token opens is one of Markdown, or a wiki link that is written in a
text. -/
def Token.IsLinkOf (pages : PageSet) (text : String) (token : Token) : Prop :=
  (∃ address title, token = SourceUnit.openingToken (.link address title)) ∨
    ∃ start stop target, WikiLink.StandsAt text start stop target ∧
      token = WikiLink.openingToken target pages

/-- Links of Markdown have no class. -/
@[simp]
theorem SourceUnit.class_openingToken_link (address title : String) :
    (openingToken (.link address title)).attribute? "class" = none := by
  unfold openingToken
  simp only
  split <;> rfl

/-- A link among the units of running text is one of Markdown. -/
theorem SourceUnit.Content.Arises.isLink {content : SourceUnit.Content}
    (arises : content.Arises) {token : Token}
    (isToken : content = .opening token ∨ content = .closing token ∨ content = .leaf token)
    (isLink : token.kind = .linkOpen) :
    ∃ address title, token = SourceUnit.openingToken (.link address title) := by
  cases arises with
  | text => rcases isToken with isToken | isToken | isToken <;> cases isToken
  | opening element =>
      rcases isToken with isToken | isToken | isToken <;> cases isToken
      cases element with
      | link address title => exact ⟨address, title, rfl⟩
      | _ => cases isLink
  | closing kind =>
      rcases isToken with isToken | isToken | isToken <;> cases isToken
      cases kind <;> cases isLink
  | image target title description =>
      rcases isToken with isToken | isToken | isToken <;> cases isToken
      rw [SourceUnit.kind_imageToken] at isLink
      cases isLink
  | _ =>
      rcases isToken with isToken | isToken | isToken <;> cases isToken
      cases isLink

/-- Every link in the tokens of a text is written in that text, or is one of Markdown. -/
theorem isLinkOf_of_mem_blockTokens {pages : PageSet} {text : String} {token : Token}
    (member : token ∈ Token.inlineTokens (blockTokens Engine.wiki.rules pages text))
    (isLink : token.kind = .linkOpen) : token.IsLinkOf pages text := by
  obtain ⟨events, inRun⟩ := exists_run_of_mem_blockTokens member
  cases origin_of_mem_tokenizeRun inRun with
  | text => cases isLink
  | unit unitMember content =>
      exact .inl ((SourceUnit.arises_of_mem_ofEvents unitMember).isLink content isLink)
  | link stands => exact .inr ⟨_, _, _, stands, rfl⟩
  | linkEnd => cases isLink

/-! ## Pages -/

@[simp]
theorem HeadingId.inlineTokens_annotate (used : List String) (tokens : List Token) :
    Token.inlineTokens (annotate used tokens) = Token.inlineTokens tokens := by
  have inside (tokens : List Token) : Token.inlineTokens tokens =
      (tokens.map Token.children).flatMap (Option.getD · []) := by
    rw [List.flatMap_map]
    rfl
  rw [inside, inside, map_children_annotate]

namespace Engine

variable (engine : Engine) (pages : PageSet)

/-- An inline token of a named document was made for its text. -/
theorem mem_inlineTokens_of_tokenize {text : String} {token : Token}
    (member : token ∈ Token.inlineTokens (engine.tokenize pages text)) :
    token ∈ Token.inlineTokens (blockTokens engine.rules pages text) := by
  unfold tokenize at member
  rwa [HeadingId.inlineTokens_annotate] at member

theorem mem_inlineTokens_of_paragraphChildren? {tokens children : List Token} {token : Token}
    (found : paragraphChildren? tokens = some children) (member : token ∈ children) :
    token ∈ Token.inlineTokens tokens := by
  unfold paragraphChildren? at found
  split at found
  · rename_i first middle last
    split at found
    · cases found
      cases childrenEq : middle.children with
      | none =>
          rw [childrenEq] at member
          cases member
      | some children =>
          rw [childrenEq] at member
          exact Token.mem_inlineTokens.mpr ⟨middle, by simp, children, childrenEq, member⟩
    · cases found
  · cases found

/-- A link of a snippet was made for the text of the snippet. -/
theorem exists_source_of_mem_tokenizeInline {text : String} {token : Token}
    (member : token ∈ engine.tokenizeInline pages text) (isLink : token.kind = .linkOpen) :
    ∃ source, token ∈ Token.inlineTokens (blockTokens engine.rules pages source) := by
  have notText {text : String} (isText : token ∈ textTokens text) : False := by
    unfold textTokens at isText
    split at isText
    · cases isText
    · rw [List.mem_singleton.mp isText] at isLink
      cases isLink
  unfold tokenizeInline at member
  simp only at member
  split at member
  · exact (notText member).elim
  · rcases List.mem_append.mp member with leading | trailing
    · rcases List.mem_append.mp leading with leading | inner
      · exact (notText leading).elim
      · generalize String.ofList (Text.trimEnd (text.toList.drop
          (text.toList.takeWhile Text.isWhiteSpace).length)) = trimmed at inner
        refine ⟨trimmed, ?_⟩
        cases found : paragraphChildren? (blockTokens engine.rules pages trimmed) with
        | none =>
            rw [found] at inner
            rw [List.mem_singleton.mp inner] at isLink
            cases isLink
        | some children =>
            rw [found] at inner
            exact mem_inlineTokens_of_paragraphChildren? found inner
    · exact (notText trailing).elim

end Engine

namespace TableOfContents

variable {engine : Engine} {pages : PageSet}

/-- A link in what takes the place of a token was there before, or was made for another
text. -/
theorem exists_source_of_mem_expandToken {listed : List Entry} {outer copy token : Token}
    (copyMember : copy ∈ expandToken engine pages listed outer) {children : List Token}
    (childrenEq : copy.children = some children) (member : token ∈ children)
    (isLink : token.kind = .linkOpen) :
    outer.children = some children ∨
      ∃ source, token ∈ Token.inlineTokens (blockTokens engine.rules pages source) := by
  unfold expandToken at copyMember
  simp only at copyMember
  split at copyMember
  · obtain ⟨piece, _, inPiece⟩ := List.mem_flatMap.mp copyMember
    cases piece with
    | text chars =>
        rw [List.mem_singleton.mp inPiece] at childrenEq
        unfold fragment at childrenEq
        simp only at childrenEq
        split at childrenEq
        · cases childrenEq
          exact .inr (engine.exists_source_of_mem_tokenizeInline pages member isLink)
        · exact .inl childrenEq
    | mark requested =>
        right
        simp only at inPiece
        unfold listTokens at inPiece
        simp only at inPiece
        split at inPiece
        · cases inPiece
        · refine ⟨markdown listed (topLevel listed) (requested.getD (topLevel listed)),
            engine.mem_inlineTokens_of_tokenize pages (Token.mem_inlineTokens.mpr ?_)⟩
          generalize engine.tokenize pages (markdown listed (topLevel listed)
            (requested.getD (topLevel listed))) = tokens at inPiece ⊢
          cases tokens with
          | nil => cases inPiece
          | cons first rest =>
              rcases List.mem_cons.mp inPiece with rfl | later
              · exact ⟨first, List.mem_cons_self, children, childrenEq, member⟩
              · exact ⟨copy, List.mem_cons_of_mem _ later, children, childrenEq, member⟩
  · rw [List.mem_singleton.mp copyMember] at childrenEq
    exact .inl childrenEq

end TableOfContents

/-- Every link of a page was made for some text. -/
theorem exists_source_of_mem_pageTokens {engine : Engine} {pages : PageSet} {text : String}
    {token : Token} (member : token ∈ Token.inlineTokens (engine.pageTokens pages text))
    (isLink : token.kind = .linkOpen) :
    ∃ source, token ∈ Token.inlineTokens (blockTokens engine.rules pages source) := by
  obtain ⟨copy, copyMember, children, childrenEq, inside⟩ := Token.mem_inlineTokens.mp member
  unfold Engine.pageTokens TableOfContents.expand at copyMember
  obtain ⟨outer, outerMember, inPlace⟩ := List.mem_flatMap.mp copyMember
  rcases TableOfContents.exists_source_of_mem_expandToken inPlace childrenEq inside isLink with
    same | other
  · refine ⟨text, engine.mem_inlineTokens_of_tokenize pages ?_⟩
    exact Token.mem_inlineTokens.mpr ⟨outer, outerMember, children, same, inside⟩
  · exact other

end WikiPress
