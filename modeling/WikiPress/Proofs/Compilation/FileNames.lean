import Mathlib.Data.List.Nodup
import WikiPress.Proofs.Compilation.Publication
import WikiPress.Proofs.Files.Listing
import WikiPress.Proofs.Files.TreeFiles
import WikiPress.Proofs.Slug

/-!
# The names of the files of an edition

The file of a page is named by a slug, so it lies directly in the output, and no two pages
share one.  An asset is named by the names that lead to it from the input.  Nothing keeps
an asset from having the name of a page.
-/

namespace WikiPress

open Files

/-! ## Pages -/

/-- Pages with distinct slugs for ids. -/
structure Page.Named (pages : List Page) : Prop where
  nodup : (pages.map Page.id).Nodup
  isSlug : ∀ page ∈ pages, ∃ name, page.id = slugify name

theorem Page.named_of_discoverFrom {found pages : List Page} {paths : List Path}
    (named : Named found) (discovered : discoverFrom found paths = .ok pages) : Named pages := by
  induction paths generalizing found with
  | nil =>
      cases discovered
      exact named
  | cons path paths ih =>
      unfold discoverFrom at discovered
      simp only at discovered
      split at discovered
      · cases discovered
      · rename_i new
        apply ih _ discovered
        constructor
        · rw [List.map_append, List.map_singleton, ← List.concat_eq_append, List.nodup_concat]
          refine ⟨?_, named.nodup⟩
          intro taken
          obtain ⟨page, member, same⟩ := List.mem_map.mp taken
          exact List.find?_eq_none.mp new page member (beq_iff_eq.mpr same)
        · intro page member
          rcases List.mem_append.mp member with earlier | last
          · exact named.isSlug page earlier
          · rw [List.mem_singleton.mp last]
            exact ⟨_, rfl⟩

theorem Page.named_of_discover {pages : List Page} {paths : List Path}
    (discovered : discover paths = .ok pages) : Named pages := by
  have none : Named [] := ⟨List.nodup_nil, nofun⟩
  exact named_of_discoverFrom none discovered

/-- The file of a page has a name, and lies directly in the output. -/
theorem Page.isName_outputPath {page : Page} {name : String} (isSlug : page.id = slugify name) :
    Path.IsName page.outputPath := by
  have long : 5 ≤ page.outputPath.toList.length := by
    unfold outputPath
    rw [String.toList_append, List.length_append]
    exact Nat.le_add_left 5 page.id.toList.length
  have other (short : String) (isShort : short.toList.length < 5) : page.outputPath ≠ short := by
    rintro rfl
    exact absurd long (Nat.not_le_of_gt isShort)
  refine ⟨⟨other "" (by decide), ?_, other "." (by decide)⟩, other ".." (by decide)⟩
  unfold outputPath
  rw [isSlug, String.toList_append, List.mem_append]
  rintro (inSlug | inEnding)
  · exact Slug.not_mem_slugify rfl (by decide) name inSlug
  · exact absurd inEnding (by decide)

theorem Page.Named.isName_outputPath {pages : List Page} (named : Named pages) {page : Page}
    (member : page ∈ pages) : Path.IsName page.outputPath := by
  obtain ⟨name, isSlug⟩ := named.isSlug page member
  exact Page.isName_outputPath isSlug

@[simp]
theorem Page.outputPath_inj {page other : Page} :
    page.outputPath = other.outputPath ↔ page.id = other.id := by
  unfold outputPath
  exact String.append_left_inj ".html"

theorem Page.Named.nodup_outputPath {pages : List Page} (named : Named pages) :
    (pages.map Page.outputPath).Nodup := by
  have ids := List.pairwise_map.mp named.nodup
  exact List.pairwise_map.mpr (ids.imp fun different same => different (outputPath_inj.mp same))

namespace Compilation

/-- The pages of an edition have distinct slugs for ids. -/
theorem named_of_run_prepare {config : Config} {generatedAt : Moment} {reads : List Event}
    {edition : Edition}
    (run : (prepare Program.loader config generatedAt).Run reads (.ok edition)) :
    Page.Named edition.report.pages := by
  obtain ⟨_, pages, preparedBy⟩ := preparedBy_of_run run
  obtain ⟨paths, discovered, _⟩ := preparedBy.begins
  have named := Page.named_of_discover discovered
  have ids : edition.report.pages.map Page.id = pages.map Page.id :=
    map_id_of_forall₂ preparedBy.rendered
  constructor
  · rw [ids]
    exact named.nodup
  · intro page member
    have inPages : page.id ∈ pages.map Page.id := ids ▸ List.mem_map_of_mem member
    obtain ⟨discoveredPage, discoveredMember, same⟩ := List.mem_map.mp inPages
    rw [← same]
    exact named.isSlug discoveredPage discoveredMember

/-! ## Assets -/

theorem mem_of_run_loadFiles {reads : List Event} {loaded assets : List (Path × ByteArray)}
    {paths : List Path} (run : (loadFiles Program.loader loaded paths).Run reads (.ok assets))
    {asset : Path × ByteArray} (member : asset ∈ assets) :
    asset ∈ loaded ∨ asset.1 ∈ paths := by
  induction paths generalizing reads loaded with
  | nil =>
      obtain ⟨_, ended⟩ := Program.run_done_iff.mp run
      cases ended
      exact .inl member
  | cons path paths ih =>
      unfold loadFiles at run
      split at run
      · exact (ih run).imp_right (List.mem_cons_of_mem path)
      · obtain ⟨answer, _, _, restRun⟩ := Program.run_call_bind_iff.mp run
        cases answer with
        | error error => cases restRun
        | ok content =>
            rcases ih restRun with earlier | later
            · rcases List.mem_append.mp earlier with before | last
              · exact .inl before
              · rw [List.mem_singleton.mp last]
                exact .inr List.mem_cons_self
            · exact .inr (List.mem_cons_of_mem path later)

/-- An asset that was not loaded before was listed for one of the patterns. -/
theorem mem_of_run_loadMatches {reads : List Event} {loaded assets : List (Path × ByteArray)}
    {patterns : List String}
    (run : (loadMatches Program.loader loaded patterns).Run reads (.ok assets))
    {asset : Path × ByteArray} (member : asset ∈ assets) :
    asset ∈ loaded ∨
      ∃ pattern paths, ⟨.glob pattern, .ok paths⟩ ∈ reads ∧ asset.1 ∈ paths := by
  induction patterns generalizing reads loaded with
  | nil =>
      obtain ⟨_, ended⟩ := Program.run_done_iff.mp run
      cases ended
      exact .inl member
  | cons pattern patterns ih =>
      unfold loadMatches at run
      obtain ⟨found, _, rfl, restRun⟩ := Program.run_call_bind_iff.mp run
      cases found with
      | error error => cases restRun
      | ok paths =>
          obtain ⟨_, result, second, rfl, firstRun, secondRun⟩ := Program.run_bind_iff.mp restRun
          cases result with
          | error error => cases secondRun
          | ok more =>
              rcases ih secondRun with loadedNow | ⟨later, laterPaths, event, listed⟩
              · rcases mem_of_run_loadFiles firstRun loadedNow with earlier | listed
                · exact .inl earlier
                · exact .inr ⟨pattern, paths, List.mem_cons_self, listed⟩
              · refine .inr ⟨later, laterPaths, ?_, listed⟩
                exact List.mem_cons_of_mem _ (List.mem_append_right _ event)

theorem exists_glob_of_run_prepare {config : Config} {generatedAt : Moment} {reads : List Event}
    {edition : Edition}
    (run : (prepare Program.loader config generatedAt).Run reads (.ok edition))
    {asset : Path × ByteArray} (member : asset ∈ edition.assets) :
    ∃ pattern paths, ⟨.glob pattern, .ok paths⟩ ∈ reads ∧ asset.1 ∈ paths := by
  obtain ⟨_, _, _, _, _, _, _, rfl, _, _, assetsRun, rfl⟩ := steps_of_run_prepare run
  rcases mem_of_run_loadMatches assetsRun member with impossible | ⟨pattern, paths, event, listed⟩
  · cases impossible
  · refine ⟨pattern, paths, ?_, listed⟩
    exact List.mem_cons_of_mem _ (List.mem_append_right _ (List.mem_append_right _ event))

end Compilation

/-! ## Listed files -/

/-- A path that a directory lists is written from the names of a file below it. -/
theorem Loader.exists_names_of_glob {workingDirectory : Place} {root : Path}
    {excluded : List Path} {tree : Tree} {pattern : String} {paths : List Path}
    (listed : (((Loader.ofDirectory (Tree.system workingDirectory) root excluded).glob
      pattern).run tree).1 = .ok paths) {path : Path} (member : path ∈ paths) :
    ∃ names ∈ tree.filesBelow workingDirectory root, "/".intercalate names = path := by
  unfold Loader.ofDirectory at listed
  simp only at listed
  cases parsed : Glob.parseAll pattern with
  | error error =>
      rw [parsed] at listed
      cases listed
  | ok patterns =>
      rw [parsed] at listed
      cases listed
      obtain ⟨names, below, _, shown, _⟩ := mem_matching.mp member
      exact ⟨names, below, shown⟩

end WikiPress
