import WikiPress.Proofs.Block.Links
import WikiPress.Proofs.Block.TokenKinds
import WikiPress.Proofs.HeadingIds
import WikiPress.Proofs.TableOfContents.Lines

/-!
# Tables of contents are complete

The list that takes the place of a mark is written as Markdown and read again.  If the
headings that it is made of are plain, each of them comes back as exactly one link to its
id, and there are no other links in the list.
-/

namespace WikiPress

open Text Markdown

/-! ## Links among the tokens of a document -/

@[simp]
theorem SourceUnit.href_openingToken_link (address title : String) :
    (openingToken (.link address title)).attribute? "href" = some address := by
  unfold openingToken
  simp only
  split <;> rfl

namespace Token

/-- The tokens of a document with those inside its running text. -/
def withInline (tokens : List Token) : List Token :=
  tokens.flatMap fun token => token :: token.children.getD []

@[simp]
theorem linkOpens_append (first second : List Token) :
    linkOpens (first ++ second) = linkOpens first ++ linkOpens second :=
  List.filter_append ..

/-- Where no token of the block structure opens a link, only inline tokens do. -/
theorem linkOpens_withInline {tokens : List Token}
    (noLinks : ∀ token ∈ tokens, token.kind ≠ .linkOpen) :
    linkOpens (withInline tokens) = linkOpens (inlineTokens tokens) := by
  induction tokens with
  | nil => rfl
  | cons token rest ih =>
      obtain ⟨noLink, noLinks⟩ := List.forall_mem_cons.mp noLinks
      have alone : linkOpens (token :: token.children.getD []) =
          linkOpens (token.children.getD []) :=
        List.filter_cons_of_neg (by simpa using noLink)
      unfold withInline inlineTokens at *
      rw [List.flatMap_cons, List.flatMap_cons, linkOpens_append, linkOpens_append, alone,
        ih noLinks]

end Token

section Rules

variable {rules : List InlineRule} (onlyWikiLinks : ∀ rule ∈ rules, rule = WikiLink.rule)

include onlyWikiLinks

/-- The links of a listing are those of its lines. -/
theorem linkOpens_blockTokens (pages : PageSet) {text : String} {targets : List String}
    (listing : Listing (Window.whole text) 0 0 targets) :
    Token.linkOpens (Token.inlineTokens (blockTokens rules pages text)) =
      targets.map fun target => SourceUnit.openingToken (.link target "") := by
  have adds := BlockBuilder.adds_tokensOf text rules pages (Event.nested_ofText text)
  have links := listing.forall₂_runs
  unfold blockTokens
  rw [adds.holdsRuns.inlineTokens_eq adds.marked]
  unfold BlockBuilder.runTokens
  rw [List.flatMap_map]
  generalize Event.runs (Event.ofText text) = runs at links
  clear listing
  induction links with
  | nil => rfl
  | cons isLink _ ih =>
      obtain ⟨span, inOrder, noBracket, isLink⟩ := isLink
      rw [List.flatMap_cons, Token.linkOpens_append, ih, List.map_cons]
      exact congrArg (· ++ _) (linkOpens_of_isLink onlyWikiLinks pages isLink inOrder noBracket)

end Rules

/-- No token of the block structure of a document opens a link. -/
theorem Engine.kind_ne_linkOpen (engine : Engine) (pages : PageSet) (text : String) :
    ∀ token ∈ engine.tokenize pages text, token.kind ≠ .linkOpen := by
  intro token member isLink
  have kindMember : token.kind ∈ (engine.tokenize pages text).map Token.kind :=
    List.mem_map_of_mem member
  unfold tokenize at kindMember
  rw [HeadingId.map_kind_annotate] at kindMember
  obtain ⟨raw, rawMember, sameKind⟩ := List.mem_map.mp kindMember
  have blockLevel := isBlockLevel_of_mem_blockTokens rawMember
  rw [sameKind, isLink] at blockLevel
  cases blockLevel

namespace TableOfContents

/-! ## The list -/

/-- A text without lines lists nothing. -/
theorem eq_nil_of_listing {text : String} (isEmpty : text.isEmpty = true) {deepest start : Nat}
    {targets : List String} (listing : Listing (Window.whole text) deepest start targets) :
    targets = [] := by
  cases listing with
  | nil => rfl
  | cons depthLe spaces line rest =>
      have inside := Window.lt_stop_of_byte? line.number
      rw [String.isEmpty_iff.mp isEmpty] at inside
      cases inside

/-- The links of the list are those of its lines. -/
theorem linkOpens_listTokens {engine : Engine}
    (onlyWikiLinks : ∀ rule ∈ engine.rules, rule = WikiLink.rule) (pages : PageSet)
    {entries : List Entry} (top : Nat) {requested : Nat}
    (plain : ∀ entry ∈ entries, entry.level ≤ requested → entry.IsPlain) :
    Token.linkOpens (Token.withInline (listTokens engine pages entries top requested)) =
      (entries.filter fun entry => entry.level ≤ requested).map fun entry =>
        SourceUnit.openingToken (.link entry.address "") := by
  have listing := listing_markdown top plain
  have noLinks := engine.kind_ne_linkOpen pages (markdown entries top requested)
  have links := linkOpens_blockTokens onlyWikiLinks pages listing
  rw [← HeadingId.inlineTokens_annotate [], List.map_map] at links
  change Token.linkOpens (Token.inlineTokens (engine.tokenize pages _)) = _ at links
  unfold listTokens
  simp only
  split
  · rename_i isEmpty
    rw [List.map_eq_nil_iff.mp (eq_nil_of_listing isEmpty listing)]
    rfl
  · generalize engine.tokenize pages (markdown entries top requested) = tokens at *
    cases tokens with
    | nil => exact links
    | cons first rest =>
        -- the class that is added to the first token changes nothing else
        obtain ⟨noLink, noLinks⟩ := List.forall_mem_cons.mp noLinks
        have classified : ∀ token ∈ first.joinAttribute "class" "table-of-contents" :: rest,
            token.kind ≠ .linkOpen := List.forall_mem_cons.mpr ⟨noLink, noLinks⟩
        exact (Token.linkOpens_withInline classified).trans links

/-! ## Headings -/

/-- The headings among tokens, each with its level. -/
def headings (tokens : List Token) : List (Token × Nat) :=
  tokens.filterMap fun token =>
    if token.kind = .headingOpen then token.headingLevel?.map (token, ·) else none

/-- Every heading of a document has an id. -/
theorem exists_id_of_mem_headings {engine : Engine} {pages : PageSet} {text : String}
    {heading : Token × Nat} (member : heading ∈ headings (engine.tokenize pages text)) :
    ∃ id, heading.1.attribute? "id" = some id := by
  obtain ⟨token, tokenMember, headingEq⟩ := List.mem_filterMap.mp member
  split at headingEq
  · rename_i isHeading
    obtain ⟨level, _, rfl⟩ := Option.map_eq_some_iff.mp headingEq
    exact HeadingId.exists_id_of_mem_annotate [] tokenMember isHeading
  · cases headingEq

/-- Entries have the levels and the ids of the headings. -/
theorem map_entries (tokens : List Token) :
    (entries tokens).map (fun entry => (entry.level, entry.id)) =
      (headings tokens).map fun heading => (heading.2, (heading.1.attribute? "id").getD "") := by
  induction tokens with
  | nil => rfl
  | cons token rest ih =>
      unfold entries headings
      rw [List.filterMap_cons]
      split
      · rename_i isHeading
        rw [List.map_append, ih]
        unfold Entry.ofHeading?
        cases token.headingLevel? <;> rfl
      · exact ih

theorem map_level_entries (tokens : List Token) :
    (entries tokens).map Entry.level = (headings tokens).map Prod.snd := by
  have pairs := congrArg (List.map Prod.fst) (map_entries tokens)
  rwa [List.map_map, List.map_map] at pairs

/-- A mark lists the headings down to the level that it asks for, or else down to the
smallest level of a heading. -/
inductive ListsTo (tokens : List Token) : (requested : Option Nat) → (level : Nat) → Prop where
  | number (level : Nat) : ListsTo tokens (some level) level
  | smallest {level : Nat} (least : ∀ heading ∈ headings tokens, level ≤ heading.2)
      (attained : headings tokens ≠ [] → ∃ heading ∈ headings tokens, heading.2 = level) :
      ListsTo tokens none level

variable {tokens : List Token} {requested : Option Nat} {level : Nat}

/-- The entries that are listed are those down to that level. -/
theorem ListsTo.filter_eq (listsTo : ListsTo tokens requested level) :
    ((entries tokens).filter fun entry =>
        entry.level ≤ requested.getD (topLevel (entries tokens))) =
      (entries tokens).filter fun entry => entry.level ≤ level := by
  cases listsTo with
  | number => rfl
  | smallest least attained =>
      have levels := map_level_entries tokens
      by_cases none : headings tokens = []
      · rw [none, List.map_nil, List.map_eq_nil_iff] at levels
        rw [levels]
        rfl
      · have smallest : ((entries tokens).map Entry.level).min? = some level := by
          rw [levels, List.min?_eq_some_iff]
          refine ⟨List.mem_map.mpr (attained none), fun other member => ?_⟩
          obtain ⟨heading, isHeading, rfl⟩ := List.mem_map.mp member
          exact least heading isHeading
        unfold topLevel
        rw [smallest]
        rfl

/-- What the listed headings are linked by. -/
theorem map_address_entries (tokens : List Token) (level : Nat) :
    ((entries tokens).filter fun entry => entry.level ≤ level).map Entry.address =
      ((headings tokens).filter fun heading => heading.2 ≤ level).map fun heading =>
        "#" ++ (heading.1.attribute? "id").getD "" := by
  have listed := congrArg (fun pairs : List (Nat × String) =>
    (pairs.filter fun pair => pair.1 ≤ level).map fun pair => "#" ++ pair.2) (map_entries tokens)
  simp only [List.filter_map, List.map_map] at listed
  exact listed

/-! ## Marks -/

/-- The tokens that take the place of a piece of a token. -/
def Piece.replacement (engine : Engine) (pages : PageSet) (entries : List Entry) (token : Token) :
    Piece → List Token
  | .text chars => [fragment engine pages token (String.ofList chars)]
  | .mark requested =>
    listTokens engine pages entries (topLevel entries) (requested.getD (topLevel entries))

theorem expandToken_eq (engine : Engine) (pages : PageSet) (entries : List Entry) {token : Token}
    (isRead : token.kind = .inline ∨ token.kind = .htmlBlock)
    (marked : (piecesOf token.content).any Piece.isMark = true) :
    expandToken engine pages entries token =
      (piecesOf token.content).flatMap (Piece.replacement engine pages entries token) := by
  have applies : ((token.kind = .inline || token.kind = .htmlBlock) &&
      (piecesOf token.content).any Piece.isMark) = true := by
    rw [marked, Bool.and_true, Bool.or_eq_true, decide_eq_true_eq, decide_eq_true_eq]
    exact isRead
  unfold expandToken
  simp only
  rw [if_pos applies]
  rfl

/-- The links in place of a mark lead to the headings down to its level. -/
theorem links_replacement_mark {engine : Engine}
    (onlyWikiLinks : ∀ rule ∈ engine.rules, rule = WikiLink.rule) (pages : PageSet)
    (text : String) (token : Token) {requested : Option Nat} {level : Nat}
    (listsTo : ListsTo (engine.tokenize pages text) requested level)
    (plain : ∀ entry ∈ entries (engine.tokenize pages text), entry.level ≤ level →
      entry.IsPlain) :
    (Token.linkOpens (Token.withInline (Piece.replacement engine pages
        (entries (engine.tokenize pages text)) token (.mark requested)))).map
          (·.attribute? "href") =
      ((headings (engine.tokenize pages text)).filter fun heading => heading.2 ≤ level).map
        fun heading => (heading.1.attribute? "id").map ("#" ++ ·) := by
  let listed := entries (engine.tokenize pages text)
  let top := topLevel listed
  have listedPlain : ∀ entry ∈ listed, entry.level ≤ requested.getD top → entry.IsPlain := by
    intro entry member small
    have isListed : entry ∈ listed.filter fun entry => entry.level ≤ requested.getD top :=
      List.mem_filter.mpr ⟨member, decide_eq_true small⟩
    rw [listsTo.filter_eq] at isListed
    exact plain entry member (of_decide_eq_true (List.mem_filter.mp isListed).2)
  unfold Piece.replacement
  simp only
  rw [linkOpens_listTokens onlyWikiLinks pages top listedPlain, listsTo.filter_eq, List.map_map]
  calc
    _ = ((listed.filter fun entry => entry.level ≤ level).map Entry.address).map some := by
      rw [List.map_map]
      exact List.map_congr_left fun entry _ => SourceUnit.href_openingToken_link entry.address ""
    _ = (((headings (engine.tokenize pages text)).filter fun heading =>
          heading.2 ≤ level).map fun heading =>
            "#" ++ (heading.1.attribute? "id").getD "").map some := by
      rw [map_address_entries]
    _ = _ := by
      rw [List.map_map]
      refine List.map_congr_left fun heading member => ?_
      obtain ⟨id, named⟩ := exists_id_of_mem_headings (List.mem_filter.mp member).1
      simp only [Function.comp_apply, named]
      rfl

/-- In place of a mark stands a list with one link for every heading down to the level of
the mark, in order, and with no other links. -/
theorem exists_list_links_eq_headings {engine : Engine}
    (onlyWikiLinks : ∀ rule ∈ engine.rules, rule = WikiLink.rule) (pages : PageSet)
    (text : String) {earlier later : List Token} {token : Token}
    (tokensEq : engine.tokenize pages text = earlier ++ token :: later)
    (isRead : token.kind = .inline ∨ token.kind = .htmlBlock)
    {before after : List Piece} {requested : Option Nat}
    (piecesEq : piecesOf token.content = before ++ .mark requested :: after)
    {level : Nat} (listsTo : ListsTo (engine.tokenize pages text) requested level)
    (plain : ∀ entry ∈ entries (engine.tokenize pages text), entry.level ≤ level →
      entry.IsPlain) :
    let listed := entries (engine.tokenize pages text)
    ∃ list,
      expand engine pages (engine.tokenize pages text) =
        earlier.flatMap (expandToken engine pages listed) ++
          before.flatMap (Piece.replacement engine pages listed token) ++ list ++
          (after.flatMap (Piece.replacement engine pages listed token) ++
            later.flatMap (expandToken engine pages listed)) ∧
      (Token.linkOpens (Token.withInline list)).map (·.attribute? "href") =
        ((headings (engine.tokenize pages text)).filter fun heading => heading.2 ≤ level).map
          fun heading => (heading.1.attribute? "id").map ("#" ++ ·) := by
  intro listed
  refine ⟨Piece.replacement engine pages listed token (.mark requested), ?_,
    links_replacement_mark onlyWikiLinks pages text token listsTo plain⟩
  have marked : (piecesOf token.content).any Piece.isMark = true := by
    rw [piecesEq, List.any_append, List.any_cons]
    simp [Piece.isMark]
  have inPlace := expandToken_eq engine pages listed isRead marked
  unfold expand
  rw [show entries (engine.tokenize pages text) = listed from rfl, tokensEq, List.flatMap_append,
    List.flatMap_cons, inPlace, piecesEq, List.flatMap_append, List.flatMap_cons]
  simp only [List.append_assoc]

/-- A section with a subsection, both of which are listed. -/
def listedSubsection : String :=
  "# A *b*\n\n## C \x7b#x\x7d\n\n#toc 2\n"

theorem exists_list_links_eq_headings_listedSubsection :
    ∃ earlier token later,
      Engine.wiki.tokenize ⟨[]⟩ listedSubsection = earlier ++ token :: later ∧
      token.kind = .inline ∧ piecesOf token.content = [] ++ .mark (some 2) :: [] ∧
      (∀ entry ∈ entries (Engine.wiki.tokenize ⟨[]⟩ listedSubsection), entry.level ≤ 2 →
        entry.IsPlain) ∧
      let listed := entries (Engine.wiki.tokenize ⟨[]⟩ listedSubsection)
      ∃ list,
        expand Engine.wiki ⟨[]⟩ (Engine.wiki.tokenize ⟨[]⟩ listedSubsection) =
          earlier.flatMap (expandToken Engine.wiki ⟨[]⟩ listed) ++
            ([] : List Piece).flatMap (Piece.replacement Engine.wiki ⟨[]⟩ listed token) ++ list ++
            (([] : List Piece).flatMap (Piece.replacement Engine.wiki ⟨[]⟩ listed token) ++
              later.flatMap (expandToken Engine.wiki ⟨[]⟩ listed)) ∧
        (Token.linkOpens (Token.withInline list)).map (·.attribute? "href") =
          ((headings (Engine.wiki.tokenize ⟨[]⟩ listedSubsection)).filter fun heading =>
            heading.2 ≤ 2).map fun heading => (heading.1.attribute? "id").map ("#" ++ ·) := by
  have marked : (Engine.wiki.tokenize ⟨[]⟩ listedSubsection)[7]?.map
      (fun token => (token.kind, piecesOf token.content)) =
        some (.inline, [] ++ .mark (some 2) :: []) := by
    decide +kernel
  have plain : ∀ entry ∈ entries (Engine.wiki.tokenize ⟨[]⟩ listedSubsection), entry.level ≤ 2 →
      entry.IsPlain := by
    decide +kernel
  obtain ⟨token, found, tokenEq⟩ := Option.map_eq_some_iff.mp marked
  obtain ⟨isInline, piecesEq⟩ := Prod.ext_iff.mp tokenEq
  obtain ⟨earlier, later, tokensEq⟩ := List.append_of_mem (List.mem_of_getElem? found)
  exact ⟨earlier, token, later, tokensEq, isInline, piecesEq, plain,
    exists_list_links_eq_headings (fun _ => List.mem_singleton.mp) ⟨[]⟩ listedSubsection tokensEq
      (.inl isInline) piecesEq (.number 2) plain⟩

/-- A heading that is a link. -/
def listedLink : String :=
  "# [a](b)\n\n#toc\n"

/-- The list links to where the heading leads, and not to the heading. -/
theorem list_links_ne_headings_listedLink :
    let tokens := Engine.wiki.tokenize ⟨[]⟩ listedLink
    (headings tokens).map (fun heading => (heading.2, heading.1.attribute? "id")) =
        [(1, some "a")] ∧
      tokens[4]?.map (fun token => (token.kind, piecesOf token.content)) =
        some (.inline, [.mark none]) ∧
      tokens[4]?.map (fun token =>
        (Token.linkOpens (Token.withInline
          (expandToken Engine.wiki ⟨[]⟩ (entries tokens) token))).map (·.attribute? "href")) =
        some [some "b"] := by
  decide +kernel

end TableOfContents

end WikiPress
