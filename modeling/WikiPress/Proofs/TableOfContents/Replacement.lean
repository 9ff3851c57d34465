import WikiPress.Proofs.TableOfContents.Completeness
import WikiPress.Proofs.TableOfContents.Marks
import WikiPress.Proofs.TableOfContents.NumberedList
import WikiPress.Proofs.TableOfContents.Snippets

/-!
# What takes the place of marks

Marks are replaced token by token.  A token without a mark stays; in place of a token with marks
stand copies of it with the text between the marks, and a list for each mark.  The lists are made
of the headings of all tokens, whatever token the mark is in.
-/

namespace WikiPress.TableOfContents

open Text

/-- Whether a token is running text, or a block of raw HTML, with a mark. -/
def HoldsMark (token : Token) : Prop :=
  (token.kind = .inline ∨ token.kind = .htmlBlock) ∧ sign <:+: token.content.toList

/-- What takes the place of a stretch of a token's content, with certain lists for the marks: a
copy of the token, which differs in its content and, if the token is running text, in what that
is read as; or a list. -/
inductive Stretch.Replaced (engine : Engine) (pages : PageSet)
    (lists : Option Nat → List Token) (token : Token) : Stretch → List Token → Prop where
  | inline {chars : List Char} {children : List Token} (isInline : token.kind = .inline)
      (reads : engine.ReadsSnippet pages chars children) :
      Replaced engine pages lists token (.text chars)
        [{ token with content := String.ofList chars, children := some children }]
  | html {chars : List Char} (isHtml : token.kind = .htmlBlock) :
      Replaced engine pages lists token (.text chars)
        [{ token with content := String.ofList chars }]
  | mark (behind : List Char) (requested : Option Nat) :
      Replaced engine pages lists token (.mark behind requested) (lists requested)

/-- What takes the place of a token, with certain lists for the marks. -/
inductive Replaced (engine : Engine) (pages : PageSet) (lists : Option Nat → List Token)
    (token : Token) : List Token → Prop where
  | kept (unmarked : ¬ HoldsMark token) : Replaced engine pages lists token [token]
  | divided (marked : HoldsMark token) {stretches : List Stretch} {parts : List (List Token)}
      (marks : LeftmostMarks token.content.toList stretches)
      (replaced : List.Forall₂ (Stretch.Replaced engine pages lists token) stretches parts) :
      Replaced engine pages lists token parts.flatten

/-- The list in place of a mark, for the entries of a document. -/
def listFor (engine : Engine) (pages : PageSet) (listed : List Entry) (requested : Option Nat) :
    List Token :=
  listTokens engine pages listed (topLevel listed) (requested.getD (topLevel listed))

variable {engine : Engine} {pages : PageSet}

theorem fragment_of_inline {token : Token} (isInline : token.kind = .inline) (content : String) :
    fragment engine pages token content =
      { token with content, children := some (engine.tokenizeInline pages content) } :=
  if_pos isInline

theorem fragment_of_htmlBlock {token : Token} (isHtml : token.kind = .htmlBlock)
    (content : String) : fragment engine pages token content = { token with content } :=
  if_neg (by rw [Token.withContent, isHtml]; exact nofun)

theorem Stretch.replaced_piece (listed : List Entry) {token : Token}
    (isRead : token.kind = .inline ∨ token.kind = .htmlBlock) (stretch : Stretch) :
    stretch.Replaced engine pages (listFor engine pages listed) token
      (stretch.piece.replacement engine pages listed token) := by
  cases stretch with
  | text chars =>
      simp only [Stretch.piece, Piece.replacement]
      cases isRead with
      | inl isInline =>
          rw [fragment_of_inline isInline]
          exact .inline isInline (Engine.readsSnippet_iff.mpr rfl)
      | inr isHtml =>
          rw [fragment_of_htmlBlock isHtml]
          exact .html isHtml
  | mark behind requested => exact .mark behind requested

theorem any_isMark_iff {content : List Char} {stretches : List Stretch}
    (marks : LeftmostMarks content stretches) :
    (stretches.map Stretch.piece).any Piece.isMark = true ↔ sign <:+: content := by
  rw [← marks.exists_mark_iff, List.any_map, List.any_eq_true]
  constructor
  · rintro ⟨stretch, member, isMark⟩
    cases stretch with
    | text chars => cases isMark
    | mark behind requested => exact ⟨behind, requested, member⟩
  · rintro ⟨behind, requested, member⟩
    exact ⟨_, member, rfl⟩

theorem replaced_expandToken (listed : List Entry) (token : Token) :
    Replaced engine pages (listFor engine pages listed) token
      (expandToken engine pages listed token) := by
  obtain ⟨stretches, marks, piecesEq⟩ := exists_marks_piecesOf token.content
  have isMarked := any_isMark_iff marks
  rw [piecesEq] at isMarked
  by_cases holds : HoldsMark token
  · obtain ⟨isRead, hasSign⟩ := holds
    rw [expandToken_eq engine pages listed isRead (isMarked.mpr hasSign), ← piecesEq,
      List.flatMap_map, List.flatMap_def]
    refine .divided ⟨isRead, hasSign⟩ marks ?_
    rw [List.forall₂_map_right_iff]
    exact List.forall₂_same.mpr fun stretch _ => stretch.replaced_piece listed isRead
  · have unread : ¬ ((token.kind = .inline || token.kind = .htmlBlock) &&
        (piecesOf token.content).any Piece.isMark) = true := by
      rw [Bool.and_eq_true, isMarked, Bool.or_eq_true, decide_eq_true_eq, decide_eq_true_eq]
      exact holds
    unfold expandToken
    simp only
    rw [if_neg unread]
    exact .kept holds

/-! ## The lists -/

variable {tokens : List Token} {requested : Option Nat} {level : Nat}

/-- The entries down to a level are none exactly if all headings are of greater levels. -/
theorem filter_entries_eq_nil_iff :
    ((entries tokens).filter fun entry => entry.level ≤ level) = [] ↔
      ∀ heading ∈ headings tokens, level < heading.2 := by
  have levels := map_level_entries tokens
  calc
    _ ↔ ∀ number ∈ (entries tokens).map Entry.level, level < number := by
      simp [List.filter_eq_nil_iff]
    _ ↔ ∀ heading ∈ headings tokens, level < heading.2 := by
      rw [levels, List.forall_mem_map]

/-- A mark has a list exactly if some heading is of its level. -/
theorem listFor_spec (listsTo : ListsTo tokens requested level) :
    (listFor engine pages (entries tokens) requested = [] ↔
        ∀ heading ∈ headings tokens, level < heading.2) ∧
      (listFor engine pages (entries tokens) requested ≠ [] →
        BeginsWithContents (listFor engine pages (entries tokens) requested)) := by
  have listed := listsTo.filter_eq
  rw [← filter_entries_eq_nil_iff, ← listed]
  unfold listFor
  cases filtered : (entries tokens).filter fun entry =>
      entry.level ≤ requested.getD (topLevel (entries tokens)) with
  | nil =>
      have noList := listTokens_eq_nil engine pages (topLevel (entries tokens)) filtered
      exact ⟨iff_of_true noList rfl, fun isList => absurd noList isList⟩
  | cons entry rest =>
      have begins := beginsWithContents_listTokens engine pages (topLevel (entries tokens))
        filtered
      refine ⟨iff_of_false ?_ nofun, fun _ => begins⟩
      intro noList
      rw [noList] at begins
      cases begins

/-- Replacing the marks conserves everything else.  In place of every token stands one part, in
order.  A token without a mark is its own part; in place of any other token stand copies of it,
which differ in their content and, where this is running text, in the tokens that it is read as,
and a list for each mark.  There is one way to divide a content by its leftmost marks; the
contents of the copies and the marks are the content of the token, and no copy is empty or holds
a sign.  The lists are made of the headings of all tokens and the level that a mark asks for; one
is missing exactly if all headings are of greater levels, and otherwise begins as a table of
contents. -/
theorem expand_conserves (engine : Engine) (pages : PageSet) (tokens : List Token) :
    (∃ parts, expand engine pages tokens = parts.flatten ∧
      List.Forall₂ (Replaced engine pages (listFor engine pages (entries tokens))) tokens parts) ∧
    (∀ content stretches, LeftmostMarks content stretches →
      (∀ others, LeftmostMarks content others → others = stretches) ∧
      stretches.flatMap Stretch.source = content ∧
      ∀ chars, .text chars ∈ stretches → chars ≠ [] ∧ ¬ sign <:+: chars) ∧
    ∀ requested level, ListsTo tokens requested level →
      (listFor engine pages (entries tokens) requested = [] ↔
        ∀ heading ∈ headings tokens, level < heading.2) ∧
      (listFor engine pages (entries tokens) requested ≠ [] →
        BeginsWithContents (listFor engine pages (entries tokens) requested)) := by
  refine ⟨⟨tokens.map (expandToken engine pages (entries tokens)), List.flatMap_def .., ?_⟩,
    fun _ _ marks => ⟨fun _ otherMarks => otherMarks.unique marks rfl, marks.flatMap_source,
      fun _ => marks.of_text_mem⟩,
    fun _ _ => listFor_spec⟩
  rw [List.forall₂_map_right_iff]
  exact List.forall₂_same.mpr fun token _ => replaced_expandToken (entries tokens) token

/-- Two marks side by side, of which the first asks for no level. -/
def adjacentMarks : String :=
  "# A\n\n## B\n\nx #toc#toc 2 *y*\n"

theorem expand_conserves_adjacentMarks :
    let tokens := Engine.wiki.tokenize ⟨[]⟩ adjacentMarks
    ∃ token ∈ tokens, ∃ stretches,
      HoldsMark token ∧ LeftmostMarks token.content.toList stretches ∧
      stretches.map Stretch.piece =
        [.text "x ".toList, .mark none, .mark (some 2), .text " *y*".toList] ∧
      stretches.flatMap Stretch.source = "x #toc#toc 2 *y*".toList ∧
      .text "x ".toList ∈ stretches ∧ ¬ sign <:+: "x ".toList ∧
      listFor Engine.wiki ⟨[]⟩ (entries tokens) (some 2) ≠ [] ∧
      BeginsWithContents (listFor Engine.wiki ⟨[]⟩ (entries tokens) (some 2)) ∧
      (((expand Engine.wiki ⟨[]⟩ tokens).filter fun copy =>
          copy.content = "x " ∨ copy.content = " *y*").map fun copy =>
            (copy.kind, copy.children.map (List.map fun child => (child.kind, child.content)))) =
        [(.inline, some [(.text, "x"), (.text, " ")]),
          (.inline, some [(.text, " "), (.emOpen, ""), (.text, "y"), (.emClose, "")])] ∧
      ∃ parts, expand Engine.wiki ⟨[]⟩ tokens = parts.flatten ∧
        List.Forall₂ (Replaced Engine.wiki ⟨[]⟩ (listFor Engine.wiki ⟨[]⟩ (entries tokens)))
          tokens parts := by
  intro tokens
  obtain ⟨parts, conserved, lists⟩ := expand_conserves Engine.wiki ⟨[]⟩ tokens
  have found : tokens[7]?.map (fun token => (token.kind, token.content)) =
      some (.inline, "x #toc#toc 2 *y*") := by
    decide +kernel
  obtain ⟨token, isToken, tokenEq⟩ := Option.map_eq_some_iff.mp found
  obtain ⟨isInline, contentEq⟩ := Prod.ext_iff.mp tokenEq
  have isContent : token.content = "x #toc#toc 2 *y*" := contentEq
  obtain ⟨stretches, marks, piecesEq⟩ := exists_marks_piecesOf token.content
  have pieces : stretches.map Stretch.piece =
      [.text "x ".toList, .mark none, .mark (some 2), .text " *y*".toList] := by
    rw [piecesEq, isContent]
    decide +kernel
  have isText : .text "x ".toList ∈ stretches := by
    have isPiece : .text "x ".toList ∈ stretches.map Stretch.piece := by
      rw [pieces]
      exact List.mem_cons_self
    obtain ⟨stretch, member, same⟩ := List.mem_map.mp isPiece
    cases stretch with
    | text chars =>
        cases same
        exact member
    | mark behind requested => cases same
  have spec := lists (some 2) 2 (.number 2)
  have isListed : listFor Engine.wiki ⟨[]⟩ (entries tokens) (some 2) ≠ [] := by
    intro noList
    have tooLow := spec.1.mp noList
    have qualifies : ¬ ∀ level ∈ (headings tokens).map Prod.snd, 2 < level := by decide +kernel
    exact qualifies (List.forall_mem_map.mpr tooLow)
  obtain ⟨-, source, ofText⟩ := conserved _ _ marks
  refine ⟨token, List.mem_of_getElem? isToken, stretches, ⟨.inl isInline, ?_⟩, marks, pieces, ?_,
    isText, (ofText _ isText).2, isListed, spec.2 isListed, by decide +kernel, parts⟩
  · rw [isContent]
    decide +kernel
  · exact source.trans (congrArg String.toList isContent)

end WikiPress.TableOfContents
