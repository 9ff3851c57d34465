import Mathlib.Data.List.Forall2
import Mathlib.Data.List.Nodup
import WikiPress.Proofs.Call.Program

/-!
# What an edition is made of

A path of the first phase that ends with an edition shows where each part of it
comes from: the template and the list of pages from the first two calls, a rendered
page and a file for every page that was discovered, in that order, and one content
for every asset path, which was loaded.  A path that ends with a failure never ends
with the failure of a saver.
-/

namespace WikiPress

open Files

theorem Page.withSource_fields (page : Page) (source expanded : String) :
    (page.withSource source expanded).id = page.id ∧
      (page.withSource source expanded).sourcePath = page.sourcePath ∧
      (page.withSource source expanded).rawSource = some source := by
  unfold withSource
  rcases Pragma.extract expanded with ⟨text, pragmas⟩
  exact ⟨rfl, rfl, rfl⟩

/-- A page after it has been rendered, by the calls of its run. -/
structure Page.FilledBy (reads : List Event) (page filled : Page) : Prop where
  id_eq : filled.id = page.id
  sourcePath_eq : filled.sourcePath = page.sourcePath
  loaded : ∃ source, ⟨.load page.sourcePath, .ok source⟩ ∈ reads ∧
    filled.rawSource = some source

theorem Page.FilledBy.mono {reads more : List Event} {page filled : Page}
    (filledBy : FilledBy reads page filled) (sublist : reads ⊆ more) :
    FilledBy more page filled := by
  obtain ⟨source, member, rawSource⟩ := filledBy.loaded
  exact ⟨filledBy.id_eq, filledBy.sourcePath_eq, source, sublist member, rawSource⟩

theorem Page.FilledBy.outputPath_eq {reads : List Event} {page filled : Page}
    (filledBy : FilledBy reads page filled) : filled.outputPath = page.outputPath := by
  unfold outputPath
  rw [filledBy.id_eq]

/-- A page that was rendered was loaded, and its includes were expanded. -/
theorem Page.steps_of_run_render {includeLimit : Nat} {context rest : RenderContext}
    {page filled : Page} {rendered : RenderedPage} {reads : List Event}
    (run : (page.render Program.loader includeLimit context).Run reads
      (.ok rendered, filled, rest)) :
    ∃ source expanded fragments expandReads,
      reads = ⟨.load page.sourcePath, .ok source⟩ :: expandReads ∧
      (Include.expand Program.loader includeLimit context.fragments source).Run expandReads
        (.ok expanded, fragments) ∧
      filled = page.withSource source expanded := by
  obtain ⟨loaded, rest, rfl, restRun⟩ := Program.run_call_bind_iff.mp run
  cases loaded with
  | error error => cases restRun
  | ok source =>
      obtain ⟨expandReads, ⟨expanded, fragments⟩, _, rfl, expandRun, lastRun⟩ :=
        Program.run_bind_iff.mp restRun
      cases expanded with
      | error error => cases lastRun
      | ok expanded =>
          obtain ⟨rfl, ended⟩ := Program.run_done_iff.mp lastRun
          rw [List.append_nil]
          exact ⟨source, expanded, fragments, expandReads, rfl, expandRun,
            congrArg (fun outcome => outcome.2.1) ended⟩

/-- A page that was rendered was loaded, and is still the same page. -/
theorem Page.filledBy_of_run {includeLimit : Nat} {context rest : RenderContext}
    {page filled : Page} {rendered : RenderedPage} {reads : List Event}
    (run : (page.render Program.loader includeLimit context).Run reads
      (.ok rendered, filled, rest)) :
    FilledBy reads page filled := by
  obtain ⟨source, expanded, _, _, rfl, -, rfl⟩ := steps_of_run_render run
  obtain ⟨idEq, sourcePathEq, rawSourceEq⟩ := page.withSource_fields source expanded
  exact ⟨idEq, sourcePathEq, source, List.mem_cons_self, rawSourceEq⟩

namespace Compilation

/-- The pages of a run are rendered in their order. -/
theorem forall₂_of_run_renderPages {includeLimit : Nat} {context : RenderContext}
    {pages : List Page} {reads : List Event} {rendered : List (Page × RenderedPage)}
    (run : (renderPages Program.loader includeLimit context pages).Run reads (.ok rendered)) :
    List.Forall₂ (fun page filled => page.FilledBy reads filled.1) pages rendered := by
  induction pages generalizing context reads rendered with
  | nil =>
      obtain ⟨rfl, ended⟩ := Program.run_done_iff.mp run
      cases ended
      exact .nil
  | cons page pages ih =>
      obtain ⟨first, ⟨answer, filled, next⟩, second, rfl, firstRun, secondRun⟩ :=
        Program.run_bind_iff.mp run
      cases answer with
      | error error => cases secondRun
      | ok body =>
          obtain ⟨others, result, none, rfl, othersRun, lastRun⟩ :=
            Program.run_bind_iff.mp secondRun
          obtain ⟨rfl, ended⟩ := Program.run_done_iff.mp lastRun
          cases result with
          | error error => contradiction
          | ok following =>
              cases ended
              have filledBy := Page.filledBy_of_run firstRun
              constructor
              · exact filledBy.mono (List.subset_append_left _ _)
              · refine (ih othersRun).imp fun page filled kept => kept.mono ?_
                simp

/-! ## Assets -/

/-- Assets whose paths are distinct and whose contents have been loaded. -/
structure AssetsLoaded (reads : List Event) (assets : List (Path × ByteArray)) : Prop where
  nodup : (assets.map Prod.fst).Nodup
  loaded : ∀ asset ∈ assets, ⟨.loadBinary asset.1, .ok asset.2⟩ ∈ reads

theorem AssetsLoaded.mono {reads more : List Event} {assets : List (Path × ByteArray)}
    (assetsLoaded : AssetsLoaded reads assets) (subset : reads ⊆ more) :
    AssetsLoaded more assets :=
  ⟨assetsLoaded.nodup, fun asset member => subset (assetsLoaded.loaded asset member)⟩

/-- A file whose path is new is put behind the assets that have been loaded. -/
theorem AssetsLoaded.concat {reads : List Event} {assets : List (Path × ByteArray)}
    (assetsLoaded : AssetsLoaded reads assets) {path : Path} {content : ByteArray}
    (new : ¬ assets.any (·.1 == path) = true)
    (member : ⟨.loadBinary path, .ok content⟩ ∈ reads) :
    AssetsLoaded reads (assets ++ [(path, content)]) := by
  constructor
  · rw [List.map_append, List.map_singleton, ← List.concat_eq_append, List.nodup_concat]
    refine ⟨?_, assetsLoaded.nodup⟩
    intro taken
    obtain ⟨asset, assetMember, same⟩ := List.mem_map.mp taken
    apply new
    rw [List.any_eq_true]
    exact ⟨asset, assetMember, beq_iff_eq.mpr same⟩
  · intro asset assetMember
    rcases List.mem_append.mp assetMember with earlier | last
    · exact assetsLoaded.loaded asset earlier
    · rw [List.mem_singleton.mp last]
      exact member

/-- Loading files keeps the paths distinct; `before` are the calls by which the
first ones were loaded. -/
theorem assetsLoaded_of_run_loadFiles {before reads : List Event}
    {loaded assets : List (Path × ByteArray)} {paths : List Path}
    (assetsLoaded : AssetsLoaded before loaded)
    (run : (loadFiles Program.loader loaded paths).Run reads (.ok assets)) :
    AssetsLoaded (before ++ reads) assets := by
  induction paths generalizing before reads loaded with
  | nil =>
      obtain ⟨rfl, ended⟩ := Program.run_done_iff.mp run
      cases ended
      exact assetsLoaded.mono (List.subset_append_left _ _)
  | cons path paths ih =>
      unfold loadFiles at run
      split at run
      · exact ih assetsLoaded run
      · rename_i new
        obtain ⟨answer, rest, rfl, restRun⟩ := Program.run_call_bind_iff.mp run
        cases answer with
        | error error => cases restRun
        | ok content =>
            rw [List.append_cons]
            apply ih _ restRun
            apply (assetsLoaded.mono (List.subset_append_left _ _)).concat new
            exact List.mem_append_right _ List.mem_cons_self

theorem assetsLoaded_of_run_loadMatches {before reads : List Event}
    {loaded assets : List (Path × ByteArray)} {patterns : List String}
    (assetsLoaded : AssetsLoaded before loaded)
    (run : (loadMatches Program.loader loaded patterns).Run reads (.ok assets)) :
    AssetsLoaded (before ++ reads) assets := by
  induction patterns generalizing before reads loaded with
  | nil =>
      obtain ⟨rfl, ended⟩ := Program.run_done_iff.mp run
      cases ended
      exact assetsLoaded.mono (List.subset_append_left _ _)
  | cons pattern patterns ih =>
      unfold loadMatches at run
      obtain ⟨found, rest, rfl, restRun⟩ := Program.run_call_bind_iff.mp run
      cases found with
      | error error => cases restRun
      | ok paths =>
          obtain ⟨first, result, second, rfl, firstRun, secondRun⟩ :=
            Program.run_bind_iff.mp restRun
          cases result with
          | error error => cases secondRun
          | ok more =>
              have files := assetsLoaded_of_run_loadFiles assetsLoaded firstRun
              apply (ih files secondRun).mono
              intro event member
              simp only [List.mem_append, List.mem_cons] at member ⊢
              rcases member with (earlier | loadedNow) | loadedLater
              · exact .inl earlier
              · exact .inr (.inr (.inl loadedNow))
              · exact .inr (.inr (.inr loadedLater))

end Compilation

/-! ## Editions -/

/-- Where the parts of an edition come from: the first calls of its run are those for
the template and for the list of pages. -/
structure Edition.PreparedBy (config : Config) (generatedAt : Moment) (reads : List Event)
    (template : String) (pages : List Page) (edition : Edition) : Prop where
  begins : ∃ paths, Page.discover paths = .ok pages ∧
    [⟨.load config.template, .ok template⟩, ⟨.glob config.pages, .ok paths⟩] <+: reads
  rendered : List.Forall₂ (fun page filled => page.FilledBy reads filled.1)
    pages edition.rendered
  documents : edition.documents = edition.rendered.map fun (page, rendered) =>
    Compilation.document template generatedAt page rendered
  assets : Compilation.AssetsLoaded reads edition.assets

/-- The files of the pages stand in the order in which the pages were discovered. -/
theorem Edition.PreparedBy.documents_paths {config : Config} {generatedAt : Moment}
    {reads : List Event} {template : String} {pages : List Page} {edition : Edition}
    (prepared : PreparedBy config generatedAt reads template pages edition) :
    edition.documents.map Prod.fst = pages.map Page.outputPath := by
  rw [prepared.documents, List.map_map]
  have inOrder := prepared.rendered
  clear prepared
  generalize edition.rendered = rendered at inOrder
  induction inOrder with
  | nil => rfl
  | cons filledBy _ ih =>
      rw [List.map_cons, List.map_cons, ih]
      exact congrArg (· :: _) filledBy.outputPath_eq

namespace Compilation

theorem discovered_of_run {config : Config} {reads : List Event} {pages : List Page}
    (run : (discoverPages Program.loader config).Run reads (.ok pages)) :
    ∃ paths, reads = [⟨.glob config.pages, .ok paths⟩] ∧ Page.discover paths = .ok pages := by
  obtain ⟨found, rest, rfl, foundRun⟩ := Program.run_call_bind_iff.mp run
  cases found with
  | error error => cases foundRun
  | ok paths =>
      obtain ⟨rfl, ended⟩ := Program.run_done_iff.mp foundRun
      refine ⟨paths, rfl, ?_⟩
      cases discovered : Page.discover paths with
      | error clash =>
          rw [discovered] at ended
          cases ended
      | ok found =>
          rw [discovered] at ended
          cases ended
          rfl

/-- A path of the first phase that ends with an edition goes through all of its steps. -/
theorem steps_of_run_prepare {config : Config} {generatedAt : Moment} {reads : List Event}
    {edition : Edition}
    (run : (prepare Program.loader config generatedAt).Run reads (.ok edition)) :
    ∃ template pages rendered assets discoverReads pageReads assetReads,
      reads = ⟨.load config.template, .ok template⟩ ::
        (discoverReads ++ (pageReads ++ assetReads)) ∧
      (discoverPages Program.loader config).Run discoverReads (.ok pages) ∧
      (renderPages Program.loader config.includeLimit (RenderContext.ofPages pages) pages).Run
        pageReads (.ok rendered) ∧
      (loadMatches Program.loader [] config.assets).Run assetReads (.ok assets) ∧
      edition =
        { rendered
          documents := rendered.map fun (page, rendered) =>
            document template generatedAt page rendered
          assets } := by
  obtain ⟨loaded, _, rfl, withTemplate⟩ := Program.run_call_bind_iff.mp run
  cases loaded with
  | error error => cases withTemplate
  | ok template =>
      obtain ⟨discoverReads, discovered, _, rfl, discoverRun, withPages⟩ :=
        Program.run_bind_iff.mp withTemplate
      cases discovered with
      | error error => cases withPages
      | ok pages =>
          obtain ⟨pageReads, result, _, rfl, pagesRun, withBodies⟩ :=
            Program.run_bind_iff.mp withPages
          cases result with
          | error error => cases withBodies
          | ok rendered =>
              obtain ⟨assetReads, result, _, rfl, assetsRun, withAssets⟩ :=
                Program.run_bind_iff.mp withBodies
              cases result with
              | error error => cases withAssets
              | ok assets =>
                  obtain ⟨rfl, ended⟩ := Program.run_done_iff.mp withAssets
                  cases ended
                  rw [List.append_nil]
                  exact ⟨template, pages, rendered, assets, discoverReads, pageReads, assetReads,
                    rfl, discoverRun, pagesRun, assetsRun, rfl⟩

/-- A path of the first phase that ends with an edition shows where its parts come
from. -/
theorem preparedBy_of_run {config : Config} {generatedAt : Moment} {reads : List Event}
    {edition : Edition}
    (run : (prepare Program.loader config generatedAt).Run reads (.ok edition)) :
    ∃ template pages, edition.PreparedBy config generatedAt reads template pages := by
  obtain ⟨template, pages, rendered, assets, discoverReads, pageReads, assetReads, rfl,
    discoverRun, pagesRun, assetsRun, rfl⟩ := steps_of_run_prepare run
  obtain ⟨paths, rfl, discovered⟩ := discovered_of_run discoverRun
  refine ⟨template, pages, ⟨paths, discovered, ?_⟩, ?_, rfl, ?_⟩
  · exact List.prefix_append _ _
  · refine (forall₂_of_run_renderPages pagesRun).imp fun page filled kept => ?_
    apply kept.mono
    intro event member
    simp [member]
  · have none : AssetsLoaded [] [] := ⟨List.nodup_nil, by simp⟩
    apply (assetsLoaded_of_run_loadMatches none assetsRun).mono
    intro event member
    simpa using .inr (.inr (.inr member))

theorem ne_save_of_run_renderPages {includeLimit : Nat} {context : RenderContext}
    {pages : List Page} {reads : List Event} {cause : SaveError} :
    ¬ (renderPages Program.loader includeLimit context pages).Run reads
      (.error (.save cause)) := by
  intro run
  induction pages generalizing context reads with
  | nil => cases run
  | cons page pages ih =>
      obtain ⟨_, ⟨answer, _, _⟩, _, _, _, restRun⟩ := Program.run_bind_iff.mp run
      cases answer with
      | error error => cases restRun
      | ok body =>
          obtain ⟨_, result, _, _, othersRun, lastRun⟩ := Program.run_bind_iff.mp restRun
          cases result with
          | error error =>
              obtain ⟨_, ended⟩ := Program.run_done_iff.mp lastRun
              cases ended
              exact ih othersRun
          | ok following => cases lastRun

/-- The first phase never fails as a saver does. -/
theorem ne_save_of_run_prepare {config : Config} {generatedAt : Moment} {reads : List Event}
    {cause : SaveError} :
    ¬ (prepare Program.loader config generatedAt).Run reads (.error (.save cause)) := by
  intro run
  obtain ⟨loaded, _, _, withTemplate⟩ := Program.run_call_bind_iff.mp run
  cases loaded with
  | error error => cases withTemplate
  | ok template =>
      obtain ⟨_, discovered, _, _, discoverRun, withPages⟩ :=
        Program.run_bind_iff.mp withTemplate
      cases discovered with
      | error error =>
          obtain ⟨_, ended⟩ := Program.run_done_iff.mp withPages
          cases ended
          obtain ⟨found, _, _, foundRun⟩ := Program.run_call_bind_iff.mp discoverRun
          cases found with
          | error error => cases foundRun
          | ok paths =>
              obtain ⟨_, clashEq⟩ := Program.run_done_iff.mp foundRun
              cases discovered : Page.discover paths <;> rw [discovered] at clashEq <;>
                cases clashEq
      | ok pages =>
          obtain ⟨_, result, _, _, pagesRun, withBodies⟩ := Program.run_bind_iff.mp withPages
          cases result with
          | error error =>
              obtain ⟨_, ended⟩ := Program.run_done_iff.mp withBodies
              cases ended
              exact ne_save_of_run_renderPages pagesRun
          | ok rendered =>
              obtain ⟨_, result, _, _, _, withAssets⟩ := Program.run_bind_iff.mp withBodies
              cases result <;> cases withAssets

end Compilation

end WikiPress
