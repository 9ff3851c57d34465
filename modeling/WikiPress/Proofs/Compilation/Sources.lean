import WikiPress.Proofs.Compilation.Preparation
import WikiPress.Proofs.Call.Usage

/-!
# What a run reads

A run loads the template, the fragments that are invoked, and files that it has been told
are there.  It goes on only as long as everything can be loaded.
-/

namespace WikiPress

open Files

/-! ## What is asked for -/

/-- A call asks for the template, for a fragment, for a list of files, or for a file that was
listed before. -/
inductive Call.AsksFor (config : Config) (reads : List Event) : Call → Prop where
  | template : AsksFor config reads (.load config.template)
  | fragment (name : String) : AsksFor config reads (.load (Include.fragmentPath name))
  | list (pattern : String) : AsksFor config reads (.glob pattern)
  | page {pattern : String} {paths : List Path} {path : Path}
      (listed : ⟨.glob pattern, .ok paths⟩ ∈ reads) (member : path ∈ paths) :
      AsksFor config reads (.load path)
  | asset {pattern : String} {paths : List Path} {path : Path}
      (listed : ⟨.glob pattern, .ok paths⟩ ∈ reads) (member : path ∈ paths) :
      AsksFor config reads (.loadBinary path)

theorem Call.AsksFor.mono {config : Config} {reads more : List Event} {call : Call}
    (asksFor : call.AsksFor config reads) (subset : reads ⊆ more) : call.AsksFor config more := by
  cases asksFor with
  | template => exact .template
  | fragment name => exact .fragment name
  | list pattern => exact .list pattern
  | page listed member => exact .page (subset listed) member
  | asset listed member => exact .asset (subset listed) member

/-- Rendering a page asks for its source and for fragments. -/
theorem Page.uses_render_source (includeLimit : Nat) (context : RenderContext) (page : Page) :
    (page.render Program.loader includeLimit context).Uses
      fun call => call = .load page.sourcePath ∨ call.IsFragment := by
  unfold Page.render
  apply Program.Uses.bind
  · exact ⟨.inl rfl, fun _ => trivial⟩
  · rintro (error | source)
    · trivial
    · apply Program.Uses.bind
      · exact (Include.uses_expandRounds includeLimit includeLimit context.fragments source).mono
          fun _ => .inr
      · rintro ⟨_ | _, _⟩ <;> trivial

/-- The pages that are discovered are those of the listed files. -/
theorem Page.sourcePath_mem_of_discoverFrom {found pages : List Page} {paths : List Path}
    (discovered : discoverFrom found paths = .ok pages) :
    ∀ page ∈ pages, page ∈ found ∨ page.sourcePath ∈ paths := by
  induction paths generalizing found with
  | nil =>
      cases discovered
      exact fun _ => .inl
  | cons path paths ih =>
      unfold discoverFrom at discovered
      simp only at discovered
      split at discovered
      · cases discovered
      · intro page member
        rcases ih discovered page member with earlier | later
        · rcases List.mem_append.mp earlier with before | last
          · exact .inl before
          · rw [List.mem_singleton.mp last]
            exact .inr List.mem_cons_self
        · exact .inr (List.mem_cons_of_mem path later)

namespace Compilation

theorem uses_renderPages_sources (includeLimit : Nat) (context : RenderContext)
    (pages : List Page) :
    (renderPages Program.loader includeLimit context pages).Uses fun call =>
      (∃ page ∈ pages, call = .load page.sourcePath) ∨ call.IsFragment := by
  induction pages generalizing context with
  | nil => trivial
  | cons page pages ih =>
      unfold renderPages
      apply Program.Uses.bind
      · apply (page.uses_render_source includeLimit context).mono
        rintro call (isSource | isFragment)
        · exact .inl ⟨page, List.mem_cons_self, isSource⟩
        · exact .inr isFragment
      · rintro ⟨error | rendered, filled, next⟩
        · trivial
        · refine ((ih next).mono ?_).bind fun _ => trivial
          rintro call (⟨other, member, isSource⟩ | isFragment)
          · exact .inl ⟨other, List.mem_cons_of_mem page member, isSource⟩
          · exact .inr isFragment

theorem uses_loadFiles_paths (loaded : List (Path × ByteArray)) (paths : List Path) :
    (loadFiles Program.loader loaded paths).Uses fun call =>
      ∃ path ∈ paths, call = .loadBinary path := by
  induction paths generalizing loaded with
  | nil => trivial
  | cons path paths ih =>
      have later (more : List (Path × ByteArray)) : (loadFiles Program.loader more paths).Uses
          fun call => ∃ other ∈ path :: paths, call = .loadBinary other := by
        apply (ih more).mono
        rintro call ⟨other, member, callEq⟩
        exact ⟨other, List.mem_cons_of_mem path member, callEq⟩
      unfold loadFiles
      split
      · exact later loaded
      · apply Program.Uses.bind
        · exact ⟨⟨path, List.mem_cons_self, rfl⟩, fun _ => trivial⟩
        · rintro (error | content)
          · trivial
          · exact later (loaded ++ [(path, content)])

variable {config : Config} {generatedAt : Moment} {reads : List Event}

theorem asksFor_of_run_loadMatches {loaded : List (Path × ByteArray)} {patterns : List String}
    {result : Except LoadError (List (Path × ByteArray))}
    (run : (loadMatches Program.loader loaded patterns).Run reads result) :
    ∀ event ∈ reads, event.call.AsksFor config reads := by
  induction patterns generalizing reads loaded with
  | nil =>
      obtain ⟨rfl, _⟩ := Program.run_done_iff.mp run
      exact nofun
  | cons pattern patterns ih =>
      unfold loadMatches at run
      obtain ⟨answer, rest, rfl, restRun⟩ := Program.run_call_bind_iff.mp run
      refine List.forall_mem_cons.mpr ⟨.list pattern, ?_⟩
      cases answer with
      | error error =>
          obtain ⟨rfl, _⟩ := Program.run_done_iff.mp restRun
          exact nofun
      | ok paths =>
          obtain ⟨files, answer, others, rfl, filesRun, othersRun⟩ :=
            Program.run_bind_iff.mp restRun
          intro event member
          rcases List.mem_append.mp member with inFiles | inOthers
          · obtain ⟨path, listed, callEq⟩ :=
              (uses_loadFiles_paths loaded paths).of_run filesRun event inFiles
            rw [callEq]
            exact .asset List.mem_cons_self listed
          · cases answer with
            | error error =>
                obtain ⟨rfl, _⟩ := Program.run_done_iff.mp othersRun
                cases inOthers
            | ok more =>
                apply (ih othersRun event inOthers).mono
                exact List.subset_cons_of_subset _ (List.subset_append_right _ _)

theorem asksFor_of_run_discoverPages {result : Except CompileError (List Page)}
    (run : (discoverPages Program.loader config).Run reads result) :
    (∀ event ∈ reads, event.call.AsksFor config reads) ∧
      ∀ pages, result = .ok pages → ∀ page ∈ pages,
        Call.AsksFor config reads (.load page.sourcePath) := by
  obtain ⟨answer, rest, rfl, restRun⟩ := Program.run_call_bind_iff.mp run
  cases answer with
  | error error =>
      obtain ⟨rfl, rfl⟩ := Program.run_done_iff.mp restRun
      exact ⟨List.forall_mem_singleton.mpr (.list config.pages), nofun⟩
  | ok paths =>
      obtain ⟨rfl, rfl⟩ := Program.run_done_iff.mp restRun
      refine ⟨List.forall_mem_singleton.mpr (.list config.pages), ?_⟩
      intro pages discovered page member
      cases discover : Page.discover paths with
      | error clash =>
          rw [discover] at discovered
          cases discovered
      | ok found =>
          rw [discover] at discovered
          cases discovered
          rcases Page.sourcePath_mem_of_discoverFrom discover page member with none | listed
          · cases none
          · exact .page List.mem_cons_self listed

theorem asksFor_of_run_renderPages {context : RenderContext} {pages : List Page}
    {listed : List Event} {result : Except CompileError (List (Page × RenderedPage))}
    (known : ∀ page ∈ pages, Call.AsksFor config listed (.load page.sourcePath))
    (run : (renderPages Program.loader config.includeLimit context pages).Run reads result) :
    ∀ event ∈ reads, event.call.AsksFor config listed := by
  intro event member
  rcases (uses_renderPages_sources _ context pages).of_run run event member with
    ⟨page, pageMember, callEq⟩ | ⟨name, callEq⟩
  · rw [callEq]
    exact known page pageMember
  · rw [callEq]
    exact .fragment name

/-- The first phase of a run asks for nothing else. -/
theorem asksFor_of_run_prepare {result : Except CompileError Edition}
    (run : (prepare Program.loader config generatedAt).Run reads result) :
    ∀ event ∈ reads, event.call.AsksFor config reads := by
  obtain ⟨answer, rest, rfl, withTemplate⟩ := Program.run_call_bind_iff.mp run
  refine List.forall_mem_cons.mpr ⟨.template, ?_⟩
  cases answer with
  | error error =>
      obtain ⟨rfl, _⟩ := Program.run_done_iff.mp withTemplate
      exact nofun
  | ok template =>
      obtain ⟨discoverReads, answer, behind, rfl, discoverRun, withPages⟩ :=
        Program.run_bind_iff.mp withTemplate
      obtain ⟨discovering, known⟩ := asksFor_of_run_discoverPages discoverRun
      have fromDiscover {call : Call} (asksFor : call.AsksFor config discoverReads) :
          call.AsksFor config (⟨.load config.template, .ok template⟩ ::
            (discoverReads ++ behind)) :=
        asksFor.mono (List.subset_cons_of_subset _ (List.subset_append_left _ _))
      intro event member
      rcases List.mem_append.mp member with inDiscover | inBehind
      · exact fromDiscover (discovering event inDiscover)
      · cases answer with
        | error error =>
            obtain ⟨rfl, _⟩ := Program.run_done_iff.mp withPages
            cases inBehind
        | ok pages =>
            obtain ⟨pageReads, answer, last, rfl, pagesRun, withBodies⟩ :=
              Program.run_bind_iff.mp withPages
            rcases List.mem_append.mp inBehind with inPages | inLast
            · exact fromDiscover
                (asksFor_of_run_renderPages (known pages rfl) pagesRun event inPages)
            · cases answer with
              | error error =>
                  obtain ⟨rfl, _⟩ := Program.run_done_iff.mp withBodies
                  cases inLast
              | ok rendered =>
                  obtain ⟨assetReads, answer, none, rfl, assetsRun, withAssets⟩ :=
                    Program.run_bind_iff.mp withBodies
                  have ended : none = [] := by
                    cases answer <;> exact (Program.run_done_iff.mp withAssets).1
                  rw [ended, List.append_nil] at inLast
                  apply (asksFor_of_run_loadMatches assetsRun event inLast).mono
                  intro other otherMember
                  simp [otherMember]

end Compilation

/-! ## What has been loaded -/

/-- A loader gave what it was asked for. -/
def Event.Loaded : Event → Prop
  | ⟨.load _, answer⟩ => ∃ text, answer = .ok text
  | ⟨.loadBinary _, answer⟩ => ∃ content, answer = .ok content
  | ⟨.glob _, answer⟩ => ∃ paths, answer = .ok paths
  | _ => False

theorem Include.loaded_of_run_loadMissing {names : List String} {cache after : Cache}
    {reads : List Event}
    (run : (loadMissing Program.loader names cache).Run reads (.ok (), after)) :
    ∀ event ∈ reads, event.Loaded := by
  induction names generalizing cache reads with
  | nil =>
      obtain ⟨rfl, _⟩ := Program.run_done_iff.mp run
      exact nofun
  | cons name names ih =>
      unfold loadMissing at run
      split at run
      · exact ih run
      · obtain ⟨answer, rest, rfl, restRun⟩ := Program.run_call_bind_iff.mp run
        cases answer with
        | error error => cases restRun
        | ok fragment => exact List.forall_mem_cons.mpr ⟨⟨fragment, rfl⟩, ih restRun⟩

theorem Include.loaded_of_run_expandRounds {limit remaining : Nat} {cache after : Cache}
    {text expanded : String} {reads : List Event}
    (run : (expandRounds Program.loader limit remaining cache text).Run reads
      (.ok expanded, after)) : ∀ event ∈ reads, event.Loaded := by
  induction remaining generalizing cache text reads with
  | zero =>
      obtain ⟨rfl, _⟩ := Program.run_done_iff.mp run
      exact nofun
  | succ remaining ih =>
      simp only [expandRounds] at run
      split at run
      · obtain ⟨rfl, _⟩ := Program.run_done_iff.mp run
        exact nofun
      · obtain ⟨first, ⟨answer, loaded⟩, second, rfl, firstRun, secondRun⟩ :=
          Program.run_bind_iff.mp run
        cases answer with
        | error error => cases secondRun
        | ok _ =>
            exact List.forall_mem_append.mpr ⟨loaded_of_run_loadMissing firstRun, ih secondRun⟩

theorem Page.loaded_of_run_render {includeLimit : Nat} {context next : RenderContext}
    {page filled : Page} {rendered : RenderedPage} {reads : List Event}
    (run : (page.render Program.loader includeLimit context).Run reads
      (.ok rendered, filled, next)) : ∀ event ∈ reads, event.Loaded := by
  obtain ⟨answer, rest, rfl, restRun⟩ := Program.run_call_bind_iff.mp run
  cases answer with
  | error error => cases restRun
  | ok source =>
      obtain ⟨expandReads, ⟨answer, fragments⟩, last, rfl, expandRun, lastRun⟩ :=
        Program.run_bind_iff.mp restRun
      cases answer with
      | error error => cases lastRun
      | ok expanded =>
          obtain ⟨rfl, _⟩ := Program.run_done_iff.mp lastRun
          rw [List.append_nil]
          exact List.forall_mem_cons.mpr
            ⟨⟨source, rfl⟩, Include.loaded_of_run_expandRounds expandRun⟩

namespace Compilation

variable {config : Config} {generatedAt : Moment} {reads : List Event}

theorem loaded_of_run_renderPages {includeLimit : Nat} {context : RenderContext}
    {pages : List Page} {rendered : List (Page × RenderedPage)}
    (run : (renderPages Program.loader includeLimit context pages).Run reads (.ok rendered)) :
    ∀ event ∈ reads, event.Loaded := by
  induction pages generalizing context reads rendered with
  | nil =>
      obtain ⟨rfl, _⟩ := Program.run_done_iff.mp run
      exact nofun
  | cons page pages ih =>
      obtain ⟨first, ⟨answer, filled, next⟩, second, rfl, firstRun, secondRun⟩ :=
        Program.run_bind_iff.mp run
      cases answer with
      | error error => cases secondRun
      | ok body =>
          obtain ⟨others, result, none, rfl, othersRun, lastRun⟩ :=
            Program.run_bind_iff.mp secondRun
          obtain ⟨rfl, ended⟩ := Program.run_done_iff.mp lastRun
          cases result with
          | error error => contradiction
          | ok following =>
              rw [List.append_nil]
              exact List.forall_mem_append.mpr
                ⟨Page.loaded_of_run_render firstRun, ih othersRun⟩

theorem loaded_of_run_loadFiles {loaded assets : List (Path × ByteArray)} {paths : List Path}
    (run : (loadFiles Program.loader loaded paths).Run reads (.ok assets)) :
    ∀ event ∈ reads, event.Loaded := by
  induction paths generalizing reads loaded with
  | nil =>
      obtain ⟨rfl, _⟩ := Program.run_done_iff.mp run
      exact nofun
  | cons path paths ih =>
      unfold loadFiles at run
      split at run
      · exact ih run
      · obtain ⟨answer, rest, rfl, restRun⟩ := Program.run_call_bind_iff.mp run
        cases answer with
        | error error => cases restRun
        | ok content => exact List.forall_mem_cons.mpr ⟨⟨content, rfl⟩, ih restRun⟩

theorem loaded_of_run_loadMatches {loaded assets : List (Path × ByteArray)}
    {patterns : List String}
    (run : (loadMatches Program.loader loaded patterns).Run reads (.ok assets)) :
    ∀ event ∈ reads, event.Loaded := by
  induction patterns generalizing reads loaded with
  | nil =>
      obtain ⟨rfl, _⟩ := Program.run_done_iff.mp run
      exact nofun
  | cons pattern patterns ih =>
      unfold loadMatches at run
      obtain ⟨answer, rest, rfl, restRun⟩ := Program.run_call_bind_iff.mp run
      cases answer with
      | error error => cases restRun
      | ok paths =>
          obtain ⟨files, answer, others, rfl, filesRun, othersRun⟩ :=
            Program.run_bind_iff.mp restRun
          cases answer with
          | error error => cases othersRun
          | ok more =>
              exact List.forall_mem_cons.mpr ⟨⟨paths, rfl⟩, List.forall_mem_append.mpr
                ⟨loaded_of_run_loadFiles filesRun, ih othersRun⟩⟩

/-- A first phase that ends with an edition has loaded all that it asked for. -/
theorem loaded_of_run_prepare {edition : Edition}
    (run : (prepare Program.loader config generatedAt).Run reads (.ok edition)) :
    ∀ event ∈ reads, event.Loaded := by
  obtain ⟨template, pages, rendered, assets, discoverReads, pageReads, assetReads, rfl,
    discoverRun, pagesRun, assetsRun, _⟩ := steps_of_run_prepare run
  obtain ⟨paths, rfl, _⟩ := discovered_of_run discoverRun
  refine List.forall_mem_cons.mpr ⟨⟨template, rfl⟩, ?_⟩
  refine List.forall_mem_append.mpr ⟨List.forall_mem_singleton.mpr ⟨paths, rfl⟩, ?_⟩
  exact List.forall_mem_append.mpr
    ⟨loaded_of_run_renderPages pagesRun, loaded_of_run_loadMatches assetsRun⟩

end Compilation

end WikiPress
