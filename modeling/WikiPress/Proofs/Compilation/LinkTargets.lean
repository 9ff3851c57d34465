import Mathlib
import WikiPress.Proofs.Block.Links
import WikiPress.Proofs.Compilation.Publication
import WikiPress.Proofs.Slug

/-!
# Links and the files they lead to

A wiki link is resolved against the names of the pages of its run, and every page of a run
that succeeds has a file in the output.  So a link that does not look broken leads to a
file that is there; a broken one leads to the page for what was not found, if there is one;
and the report counts exactly the broken ones.
-/

namespace WikiPress

open Files

/-! ## Addresses -/

/-- What stands in an address in front of the first number sign. -/
def beforeAnchor (address : String) : String :=
  String.ofList (address.toList.takeWhile (· != '#'))

theorem beforeAnchor_append {file anchor : String} (noAnchor : '#' ∉ file.toList)
    (isAnchor : ∀ first ∈ anchor.toList.head?, first = '#') :
    beforeAnchor (file ++ anchor) = file := by
  have inFile : ∀ char ∈ file.toList, (char != '#') = true := by
    rintro char member
    rw [bne_iff_ne]
    rintro rfl
    exact noAnchor member
  have behind : anchor.toList.takeWhile (· != '#') = [] := by
    cases chars : anchor.toList with
    | nil => rfl
    | cons first rest =>
        rw [isAnchor first (by rw [chars]; rfl)]
        rfl
  unfold beforeAnchor
  rw [String.toList_append, List.takeWhile_append_of_pos inFile, behind, List.append_nil,
    String.ofList_toList]

namespace WikiLink

/-- The anchor of a target is empty or begins with its number sign. -/
theorem Target.anchor_ofText (text : String) :
    ∀ first ∈ (Target.ofText text).anchor.toList.head?, first = '#' := by
  intro first isFirst
  unfold Target.ofText at isFirst
  rw [List.span_eq_takeWhile_dropWhile] at isFirst
  simp only [String.toList_ofList] at isFirst
  have stopped := List.head?_dropWhile_not (· != '#') text.toList
  rw [Option.mem_def.mp isFirst] at stopped
  simpa using stopped

/-! ## What a link shows -/

/-- What the link to a target shows among pages, and which files are there for it. -/
structure Leads (pages : List Page) (isStored : Path → Prop) (target : Target)
    (token : Token) : Prop where
  class_iff : token.attribute? "class" = some "wiki-link" ↔
    ∃ page ∈ pages, page.id = slugify target.destination
  page : ∀ page ∈ pages, page.id = slugify target.destination →
    (∃ address, token.attribute? "href" = some address ∧
      beforeAnchor address = page.outputPath) ∧ isStored page.outputPath
  broken : (¬ ∃ page ∈ pages, page.id = slugify target.destination) →
    token.attribute? "class" = some "wiki-link broken" ∧
      ∀ page ∈ pages, page.id = notFoundPage →
        token.attribute? "href" = some ("404.html#" ++ target.destination) ∧
          isStored "404.html"

@[simp]
theorem contains_ofPages_iff {pages : List Page} {id : String} :
    (PageSet.ofPages pages).contains id = true ↔ ∃ page ∈ pages, page.id = id := by
  unfold PageSet.contains PageSet.ofPages
  rw [List.contains_iff_mem, List.mem_map]

theorem Target.class_resolve (target : Target) (pages : PageSet) :
    (target.resolve pages).2 = "wiki-link" ∨ (target.resolve pages).2 = "wiki-link broken" := by
  unfold Target.resolve
  simp only
  split
  · exact .inl rfl
  · split <;> exact .inr rfl

theorem attributes_openingToken (target : Target) (pages : PageSet) :
    (openingToken target pages).attribute? "href" = some (target.resolve pages).1 ∧
      (openingToken target pages).attribute? "class" = some (target.resolve pages).2 :=
  ⟨rfl, rfl⟩

/-- The token of a written link shows where its target leads, if every page is stored. -/
theorem leads_openingToken {pages : List Page} {isStored : Path → Prop}
    (stored : ∀ page ∈ pages, isStored page.outputPath) {target : Target}
    (isAnchor : ∀ first ∈ target.anchor.toList.head?, first = '#') :
    Leads pages isStored target (openingToken target (PageSet.ofPages pages)) := by
  obtain ⟨href, cssClass⟩ := attributes_openingToken target (PageSet.ofPages pages)
  by_cases found : ∃ page ∈ pages, page.id = slugify target.destination
  · have resolved : target.resolve (PageSet.ofPages pages) =
        (slugify target.destination ++ ".html" ++ target.anchor, "wiki-link") :=
      if_pos (contains_ofPages_iff.mpr found)
    rw [resolved] at href cssClass
    refine ⟨iff_of_true cssClass found, ?_, fun missing => absurd found missing⟩
    intro page member same
    refine ⟨⟨_, href, ?_⟩, stored page member⟩
    have noAnchor : '#' ∉ (slugify target.destination ++ ".html").toList := by
      rw [String.toList_append, List.mem_append]
      rintro (inSlug | inEnding)
      · exact Slug.not_mem_slugify rfl (by decide) _ inSlug
      · exact absurd inEnding (by decide)
    rw [beforeAnchor_append noAnchor isAnchor, ← same]
    rfl
  · have missing : ¬(PageSet.ofPages pages).contains (slugify target.destination) = true :=
      fun contained => found (contains_ofPages_iff.mp contained)
    have isBroken : (target.resolve (PageSet.ofPages pages)).2 = "wiki-link broken" := by
      unfold Target.resolve
      simp only [if_neg missing]
      split <;> rfl
    rw [isBroken] at cssClass
    refine ⟨iff_of_false ?_ found, fun page member same => absurd ⟨page, member, same⟩ found,
      fun _ => ⟨cssClass, ?_⟩⟩
    · rw [cssClass]
      decide
    · intro page member isNotFound
      have hasNotFound : (PageSet.ofPages pages).contains notFoundPage = true :=
        contains_ofPages_iff.mpr ⟨page, member, isNotFound⟩
      constructor
      · rw [href]
        unfold Target.resolve
        simp only [if_neg missing, if_pos hasNotFound]
        rfl
      · have isStoredPage := stored page member
        unfold Page.outputPath at isStoredPage
        rw [isNotFound] at isStoredPage
        exact isStoredPage

/-- A link is counted as broken if its class says so. -/
theorem opensBrokenLink_iff {pages : PageSet} {token : Token}
    (madeFor : token.kind = .linkOpen → ∃ text, token.IsLinkOf pages text) :
    token.opensBrokenLink = true ↔
      token.kind = .linkOpen ∧ token.attribute? "class" = some "wiki-link broken" := by
  have broken : (Text.whiteSpaceWords "wiki-link broken").contains "broken" = true := by
    decide +kernel
  have whole : (Text.whiteSpaceWords "wiki-link").contains "broken" = false := by
    decide +kernel
  unfold Token.opensBrokenLink
  rw [Bool.and_eq_true, decide_eq_true_iff]
  apply and_congr_right
  intro isLink
  obtain ⟨text, ⟨address, title, rfl⟩ | ⟨_, _, target, _, rfl⟩⟩ := madeFor isLink
  · rw [SourceUnit.class_openingToken_link]
    exact ⟨nofun, nofun⟩
  · rw [(attributes_openingToken target pages).2]
    rcases target.class_resolve pages with isWhole | isBroken
    · rw [isWhole]
      exact ⟨fun counted => absurd counted (by rw [Option.any_some, whole]; decide), by decide⟩
    · rw [isBroken]
      exact iff_of_true (by rw [Option.any_some, broken]) rfl

end WikiLink

/-! ## Pages of a run -/

/-- The links in the final tokens of a page. -/
def Page.links (page : Page) (pages : PageSet) : List Token :=
  (Token.inlineTokens (Engine.wiki.pageTokens pages (page.processedText.getD ""))).filter
    fun token => token.kind = .linkOpen

theorem Page.exists_source_of_mem_links {page : Page} {pages : PageSet} {token : Token}
    (member : token ∈ page.links pages) :
    ∃ text, token ∈ Token.inlineTokens (blockTokens Engine.wiki.rules pages text) := by
  obtain ⟨inPage, isLink⟩ := List.mem_filter.mp member
  exact exists_source_of_mem_pageTokens inPage (of_decide_eq_true isLink)

/-- The broken links of a page are counted by their class. -/
theorem Page.brokenLinks_renderSource (page : Page) (pages : PageSet) :
    (page.renderSource Engine.wiki pages).brokenLinks =
      (page.links pages).countP
        fun token => token.attribute? "class" = some "wiki-link broken" := by
  unfold Page.renderSource brokenLinkCount Page.links Token.inlineTokens
  rw [List.countP_filter]
  apply List.countP_congr
  intro token inPage
  have madeFor : token.kind = .linkOpen → ∃ text, token.IsLinkOf pages text := by
    intro isLink
    obtain ⟨text, made⟩ := exists_source_of_mem_pageTokens inPage isLink
    exact ⟨text, isLinkOf_of_mem_blockTokens made isLink⟩
  rw [WikiLink.opensBrokenLink_iff madeFor, Bool.and_eq_true, decide_eq_true_iff,
    decide_eq_true_iff, and_comm]

namespace Compilation

theorem mem_documents {edition : Edition} {config : Config} {generatedAt : Moment}
    {reads : List Event} (prepared : (prepare Program.loader config generatedAt).Run reads
      (.ok edition)) {page : Page} (member : page ∈ edition.report.pages) :
    ∃ html, (page.outputPath, html) ∈ edition.documents := by
  obtain ⟨template, pages, preparedBy⟩ := preparedBy_of_run prepared
  obtain ⟨⟨filled, rendered⟩, renderedMember, rfl⟩ := List.mem_map.mp member
  rw [preparedBy.documents]
  exact ⟨_, List.mem_map_of_mem renderedMember⟩

theorem foldl_brokenLinks (rendered : List (Page × RenderedPage)) (count : Nat) :
    rendered.foldl (fun count (_, page) => count + page.brokenLinks) count =
      count + (rendered.map fun page => page.2.brokenLinks).sum := by
  induction rendered generalizing count with
  | nil => rfl
  | cons page rendered ih =>
      rw [List.foldl_cons, ih, List.map_cons, List.sum_cons, Nat.add_assoc]

/-- The report of an edition sums up what its pages count. -/
theorem brokenLinks_report {edition : Edition} {pages : PageSet}
    (rendered : ∀ page ∈ edition.rendered, page.2 = page.1.renderSource Engine.wiki pages) :
    edition.report.brokenLinks = (edition.report.pages.map fun page =>
      (page.links pages).countP
        fun token => token.attribute? "class" = some "wiki-link broken").sum := by
  have counted : edition.rendered.map (fun page => page.2.brokenLinks) =
      edition.rendered.map fun page => (page.1.links pages).countP
        fun token => token.attribute? "class" = some "wiki-link broken" := by
    apply List.map_congr_left
    intro page member
    rw [rendered page member, Page.brokenLinks_renderSource]
  calc edition.report.brokenLinks
    _ = 0 + (edition.rendered.map fun page => page.2.brokenLinks).sum :=
        foldl_brokenLinks edition.rendered 0
    _ = _ := by
        rw [Nat.zero_add, counted, Edition.report, List.map_map, Function.comp_def]

variable {σ : Type} {loader : Loader (StateM σ)} {saver : Saver (StateM σ)}
  {stored : σ → Path → Option ByteArray}

/-- Behind a run that succeeds every page has a file. -/
theorem stored_of_run (stores : saver.Stores stored) {config : Config} {generatedAt : Moment}
    {state final : σ} {report : Report}
    (succeeded : (run loader saver config generatedAt).run state = (.ok report, final)) :
    ∀ page ∈ report.pages, (stored final page.outputPath).isSome = true := by
  obtain ⟨edition, reads, prepared, cleared, writes, prepareRun, rfl, _, _, performs, calls,
    saved⟩ := exists_edition_of_run succeeded
  intro page member
  obtain ⟨html, documentMember⟩ := mem_documents prepareRun member
  have noClearing : ∀ event ∈ writes, event.saved? = some (.ok ()) ∧ event.call ≠ .recreate := by
    intro event eventMember
    exact ⟨saved event eventMember,
      Edition.ne_recreate_of_mem_tail (calls ▸ List.mem_map_of_mem eventMember)⟩
  apply stores.isSome_of_save performs noClearing
  rw [calls]
  exact List.mem_append_left _ (List.mem_map_of_mem documentMember)

/-- Links and output agree.  Behind a run that succeeds, with a saver that stores what it is
given, every link that was made for a text against the pages of the run is one of Markdown,
or it is a wiki link that is written in the text and leads where its class says; all links
of all pages were made for some text; and the report counts those among them whose class
says that they are broken. -/
theorem run_links_agree (stores : saver.Stores stored) {config : Config} {generatedAt : Moment}
    {state final : σ} {report : Report}
    (succeeded : (run loader saver config generatedAt).run state = (.ok report, final)) :
    let pages := PageSet.ofPages report.pages
    let isStored := fun path => (stored final path).isSome = true
    (∀ text, ∀ token ∈ Token.inlineTokens (blockTokens Engine.wiki.rules pages text),
      token.kind = .linkOpen →
        (∃ address title, token = SourceUnit.openingToken (.link address title)) ∨
        ∃ start stop target, WikiLink.StandsAt text start stop target ∧
          token = WikiLink.openingToken target pages ∧
          WikiLink.Leads report.pages isStored target token) ∧
    (∀ page ∈ report.pages, ∀ token ∈ page.links pages, ∃ text,
      token ∈ Token.inlineTokens (blockTokens Engine.wiki.rules pages text)) ∧
    report.brokenLinks = (report.pages.map fun page => (page.links pages).countP
      fun token => token.attribute? "class" = some "wiki-link broken").sum := by
  intro pages isStored
  refine ⟨?_, fun page _ token member => Page.exists_source_of_mem_links member, ?_⟩
  · intro text token member isLink
    rcases isLinkOf_of_mem_blockTokens member isLink with
      ofMarkdown | ⟨start, stop, target, stands, rfl⟩
    · exact .inl ofMarkdown
    · -- Written targets are cut at their first number sign; an anchor given otherwise could
      -- run into the name of the file.
      have isAnchor : ∀ first ∈ target.anchor.toList.head?, first = '#' := by
        obtain ⟨range, _, targetEq⟩ := stands.target_eq
        rw [targetEq]
        exact WikiLink.Target.anchor_ofText _
      exact .inr ⟨start, stop, target, stands, rfl,
        WikiLink.leads_openingToken (stored_of_run stores succeeded) isAnchor⟩
  · obtain ⟨edition, _, _, _, _, prepareRun, rfl, _⟩ := exists_edition_of_run succeeded
    exact brokenLinks_report (rendered_of_run_prepare prepareRun)

/-- Files that have been saved, the last one first. -/
abbrev Shelf := List (Path × ByteArray)

/-- Saves on a shelf. -/
def shelf : Saver (StateM Shelf) where
  save path text := do
    modify ((path, text.toUTF8) :: ·)
    return .ok ()
  saveBinary path content := do
    modify ((path, content) :: ·)
    return .ok ()
  recreate := do
    set ([] : Shelf)
    return .ok ()

/-- One page, which links to itself and to a page that is missing. -/
def oneOfTwoLinks : Loader (StateM Shelf) where
  load path := return if path = "index.md" then .ok "[[Index]] [[Nope]]" else .ok "{{body}}"
  loadBinary path := return .error (.notFound path)
  glob _ := return .ok ["index.md"]

theorem stores_shelf : shelf.Stores fun files path => files.lookup path := by
  have keeps (path other : Path) (content : ByteArray) (files : Shelf)
      (isStored : (files.lookup other).isSome = true) :
      (((path, content) :: files).lookup other).isSome = true := by
    rw [List.lookup_cons]
    split
    · rfl
    · exact isStored
  constructor
  · intro path text files _
    exact List.lookup_cons_self
  · intro path content files _
    exact List.lookup_cons_self
  · intro path text files _ other
    exact keeps path other text.toUTF8 files
  · intro path content files _ other
    exact keeps path other content files

/-- One of the two links is broken, and counted. -/
theorem run_links_agree_oneOfTwoLinks :
    shelf.Stores (fun files path => files.lookup path) ∧
      ∃ report files,
        (run oneOfTwoLinks shelf { assets := [] } ⟨0⟩).run [] = (.ok report, files) ∧
        report.brokenLinks = 1 ∧
        report.brokenLinks = (report.pages.map fun page =>
          (page.links (PageSet.ofPages report.pages)).countP
            fun token => token.attribute? "class" = some "wiki-link broken").sum := by
  have counted : ((run oneOfTwoLinks shelf { assets := [] } ⟨0⟩).run []).1.toOption.map
      Report.brokenLinks = some 1 := by decide +kernel
  rcases outcome : (run oneOfTwoLinks shelf { assets := [] } ⟨0⟩).run [] with
    ⟨_ | report, files⟩
  · rw [outcome] at counted
    cases counted
  · rw [outcome] at counted
    obtain ⟨_, _, sum⟩ := run_links_agree stores_shelf outcome
    exact ⟨stores_shelf, report, files, rfl, Option.some.inj counted, sum⟩

end Compilation

end WikiPress
