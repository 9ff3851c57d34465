import WikiPress.Proofs.Compilation.FileNames
import WikiPress.Proofs.Site.OutputWrites

/-!
# The files of an output

A run in a tree reads first, which changes nothing, then clears the output, and then saves
the pages and behind them the assets.  Each file lands at its own path below the output, so
of two with one path the later one stays.  Pages have distinct paths and so have assets;
a page is lost exactly if an asset has its path.
-/

namespace WikiPress

open Files Files.Tree

/-! ## Putting files -/

section PutFiles

variable (placeOf : Path → Place)

/-- The files of a tree when others have been put into it, one after the other. -/
def putFiles (files : List (Path × ByteArray)) (stored : Place → Option ByteArray) :
    Place → Option ByteArray :=
  files.foldl (fun stored file => Function.update stored (placeOf file.1) (some file.2)) stored

@[simp]
theorem putFiles_append (first second : List (Path × ByteArray))
    (stored : Place → Option ByteArray) :
    putFiles placeOf (first ++ second) stored =
      putFiles placeOf second (putFiles placeOf first stored) :=
  List.foldl_append

variable {placeOf}

/-- Where nothing is put, all stays as it was. -/
theorem putFiles_of_ne {files : List (Path × ByteArray)} {stored : Place → Option ByteArray}
    {place : Place} (apart : ∀ file ∈ files, placeOf file.1 ≠ place) :
    putFiles placeOf files stored place = stored place := by
  induction files generalizing stored with
  | nil => rfl
  | cons file files ih =>
      obtain ⟨first, others⟩ := List.forall_mem_cons.mp apart
      calc putFiles placeOf (file :: files) stored place
        _ = Function.update stored (placeOf file.1) (some file.2) place := ih others
        _ = stored place := Function.update_of_ne first.symm _ _

/-- A file that is put stays, if no other one is put at its place. -/
theorem putFiles_of_mem {files : List (Path × ByteArray)} {stored : Place → Option ByteArray}
    (distinct : files.Pairwise fun file other => placeOf file.1 ≠ placeOf other.1)
    {file : Path × ByteArray} (member : file ∈ files) :
    putFiles placeOf files stored (placeOf file.1) = some file.2 := by
  induction files generalizing stored with
  | nil => cases member
  | cons first files ih =>
      obtain ⟨apart, others⟩ := List.pairwise_cons.mp distinct
      rcases List.mem_cons.mp member with rfl | later
      · calc putFiles placeOf (file :: files) stored (placeOf file.1)
          _ = Function.update stored (placeOf file.1) (some file.2) (placeOf file.1) :=
              putFiles_of_ne fun other member => (apart other member).symm
          _ = some file.2 := Function.update_self _ _ _
      · exact ih others later

end PutFiles

/-! ## Calls in a tree -/

/-- The file that a call saves. -/
def Call.file? : Call → Option (Path × ByteArray)
  | save path text => some (path, text.toUTF8)
  | saveBinary path content => some (path, content)
  | _ => none

variable {workingDirectory : Place} {input output : Path} {excluded : List Path}

/-- The calls of a loader and a saver of directories. -/
def Handler.ofTree (workingDirectory : Place) (input : Path) (excluded : List Path)
    (output : Path) : Handler (StateM Tree) :=
  Handler.of (Loader.ofDirectory (system workingDirectory) input excluded)
    (Saver.ofDirectory (system workingDirectory) output)

/-- Reading leaves a tree as it was. -/
theorem Handler.run_ofTree_of_isRead {call : Call} (isRead : call.IsRead) (tree : Tree) :
    ((ofTree workingDirectory input excluded output call).run tree).2 = tree := by
  cases call with
  | load path =>
      change ((system workingDirectory).readText (Path.join input path) |>.run tree).2 = tree
      unfold System.readText
      rw [run_bind_state]
      split
      · rfl
      · split <;> rfl
  | loadBinary path => rfl
  | glob pattern =>
      unfold ofTree Handler.of Loader.ofDirectory
      simp only
      split <;> rfl
  | _ => cases isRead

theorem Handler.Performs.of_reads {tree final : Tree} {trace : List Event}
    (performs : (ofTree workingDirectory input excluded output).Performs tree trace final)
    (onlyReads : ∀ event ∈ trace, event.call.IsRead) :
    final = tree ∧ ∀ event ∈ trace,
      ((ofTree workingDirectory input excluded output event.call).run tree).1 =
        event.answer := by
  induction performs with
  | nil tree => exact ⟨rfl, nofun⟩
  | cons answered rest ih =>
      obtain ⟨first, others⟩ := List.forall_mem_cons.mp onlyReads
      rw [run_ofTree_of_isRead first] at ih
      obtain ⟨finalEq, answers⟩ := ih others
      exact ⟨finalEq, List.forall_mem_cons.mpr ⟨answered, answers⟩⟩

/-- The place of a file that is saved. -/
def Site.placeOf (workingDirectory : Place) (output path : Path) : Place :=
  writtenPlace workingDirectory (Path.join output path)

/-- A call that saves a file puts it where its path leads. -/
theorem Handler.file_of_saved {event : Event} {tree after : Tree}
    (ran : (ofTree workingDirectory input excluded output event.call).run tree =
      (event.answer, after))
    (saved : event.saved? = some (.ok ())) (notCleared : event.call ≠ .recreate) :
    ∃ file, event.call.file? = some file ∧ tree.Grows after ∧
      after.file? = Function.update tree.file?
        (Site.placeOf workingDirectory output file.1) (some file.2) := by
  rcases event with ⟨call, answer⟩
  cases call with
  | save path text =>
      cases saved
      exact ⟨(path, text.toUTF8), rfl, Site.files_of_save ran⟩
  | saveBinary path content =>
      cases saved
      exact ⟨(path, content), rfl, Site.files_of_saveBinary ran⟩
  | recreate => exact absurd rfl notCleared
  | _ => cases saved

/-- Calls that save files put them into the tree, one after the other. -/
theorem Handler.Performs.files {tree final : Tree} {trace : List Event}
    (performs : (ofTree workingDirectory input excluded output).Performs tree trace final)
    (saved : ∀ event ∈ trace, event.saved? = some (.ok ()))
    (notCleared : ∀ event ∈ trace, event.call ≠ .recreate) :
    tree.Grows final ∧
      final.file? = putFiles (Site.placeOf workingDirectory output)
        ((trace.map Event.call).filterMap Call.file?) tree.file? := by
  induction performs with
  | nil tree => exact ⟨.refl tree, rfl⟩
  | @cons tree final event trace answered rest ih =>
      obtain ⟨eventSaved, othersSaved⟩ := List.forall_mem_cons.mp saved
      obtain ⟨eventKept, othersKept⟩ := List.forall_mem_cons.mp notCleared
      obtain ⟨growsLater, filesLater⟩ := ih othersSaved othersKept
      obtain ⟨file, fileEq, grows, files⟩ :=
        file_of_saved (Prod.ext answered rfl) eventSaved eventKept
      refine ⟨grows.trans growsLater, ?_⟩
      rw [filesLater, files, List.map_cons, List.filterMap_cons_some fileEq]
      rfl

/-! ## Editions -/

/-- The files of the pages of an edition. -/
def Edition.pageFiles (edition : Edition) : List (Path × ByteArray) :=
  edition.documents.map fun (path, html) => (path, html.toUTF8)

/-- The files of an edition, in the order in which they are saved. -/
def Edition.files (edition : Edition) : List (Path × ByteArray) :=
  edition.pageFiles ++ edition.assets

@[simp]
theorem Edition.filterMap_writes (edition : Edition) :
    edition.writes.tail.filterMap Call.file? = edition.files := by
  rw [Edition.writes, List.cons_append, List.tail_cons, List.filterMap_append,
    List.filterMap_map, List.filterMap_map]
  exact congrArg₂ (· ++ ·) (congrFun List.filterMap_eq_map' edition.documents) List.filterMap_some

/-- Plain paths have a place each, below the output. -/
theorem Site.placeOf_eq_iff {path : Path} (plain : Path.IsPlain path) {names : List String} :
    placeOf workingDirectory output path = writtenPlace workingDirectory output ++ names ↔
      Path.parts path = names := by
  unfold placeOf
  rw [writtenPlace_join plain, List.append_cancel_left_eq]

theorem Site.placeOf_inj {path other : Path} (plain : Path.IsPlain path)
    (otherPlain : Path.IsPlain other) :
    placeOf workingDirectory output path = placeOf workingDirectory output other ↔
      path = other := by
  have place : placeOf workingDirectory output other =
      writtenPlace workingDirectory output ++ Path.parts other := writtenPlace_join otherPlain
  rw [place, placeOf_eq_iff plain, plain.parts_inj otherPlain]

theorem pairwise_placeOf {files : List (Path × ByteArray)}
    (distinct : (files.map Prod.fst).Nodup) (plain : ∀ file ∈ files, Path.IsPlain file.1) :
    files.Pairwise fun file other =>
      Site.placeOf workingDirectory output file.1 ≠
        Site.placeOf workingDirectory output other.1 := by
  apply (List.pairwise_map.mp distinct).imp_of_mem
  intro file other fileMember otherMember different same
  exact different ((Site.placeOf_inj (plain file fileMember) (plain other otherMember)).mp same)

/-- An edition whose files have plain paths, distinct among the pages and among the assets. -/
structure Edition.Plain (edition : Edition) : Prop where
  nodup_pages : (edition.pageFiles.map Prod.fst).Nodup
  nodup_assets : (edition.assets.map Prod.fst).Nodup
  page : ∀ file ∈ edition.pageFiles, Path.IsPlain file.1
  asset : ∀ file ∈ edition.assets, Path.IsPlain file.1

namespace Edition.Plain

variable {edition : Edition} (plain : edition.Plain) {stored : Place → Option ByteArray}
  {names : List String}
include plain

/-- At the path of an asset lies the asset. -/
theorem put_asset {file : Path × ByteArray} (member : file ∈ edition.assets)
    (named : Path.parts file.1 = names) :
    putFiles (Site.placeOf workingDirectory output) edition.files stored
      (Site.writtenPlace workingDirectory output ++ names) = some file.2 := by
  have place : Site.placeOf workingDirectory output file.1 =
      Site.writtenPlace workingDirectory output ++ names :=
    (Site.placeOf_eq_iff (plain.asset file member)).mpr named
  rw [files, putFiles_append, ← place]
  exact putFiles_of_mem (pairwise_placeOf plain.nodup_assets plain.asset) member

/-- At the path of a page lies the page, if no asset has that path. -/
theorem put_page {file : Path × ByteArray} (member : file ∈ edition.pageFiles)
    (named : Path.parts file.1 = names) (apart : file.1 ∉ edition.assets.map Prod.fst) :
    putFiles (Site.placeOf workingDirectory output) edition.files stored
      (Site.writtenPlace workingDirectory output ++ names) = some file.2 := by
  have isPlain := plain.page file member
  have place : Site.placeOf workingDirectory output file.1 =
      Site.writtenPlace workingDirectory output ++ names :=
    (Site.placeOf_eq_iff isPlain).mpr named
  have elsewhere : ∀ asset ∈ edition.assets,
      Site.placeOf workingDirectory output asset.1 ≠
        Site.placeOf workingDirectory output file.1 := by
    intro asset assetMember same
    apply apart
    rw [← (Site.placeOf_inj (plain.asset asset assetMember) isPlain).mp same]
    exact List.mem_map_of_mem assetMember
  rw [files, putFiles_append, ← place, putFiles_of_ne elsewhere]
  exact putFiles_of_mem (pairwise_placeOf plain.nodup_pages plain.page) member

/-- At any other path nothing is put. -/
theorem put_neither (noAsset : ∀ file ∈ edition.assets, Path.parts file.1 ≠ names)
    (noPage : ∀ file ∈ edition.pageFiles, Path.parts file.1 ≠ names) :
    putFiles (Site.placeOf workingDirectory output) edition.files stored
        (Site.writtenPlace workingDirectory output ++ names) =
      stored (Site.writtenPlace workingDirectory output ++ names) := by
  apply putFiles_of_ne
  intro file member same
  rcases List.mem_append.mp member with isPage | isAsset
  · exact noPage file isPage ((Site.placeOf_eq_iff (plain.page file isPage)).mp same)
  · exact noAsset file isAsset ((Site.placeOf_eq_iff (plain.asset file isAsset)).mp same)

/-- What lies below the output when the files of an edition have been put there. -/
theorem put_eq_some_iff {content : ByteArray} :
    putFiles (Site.placeOf workingDirectory output) edition.files stored
        (Site.writtenPlace workingDirectory output ++ names) = some content ↔
      (∃ file ∈ edition.assets, Path.parts file.1 = names ∧ file.2 = content) ∨
      (∃ file ∈ edition.pageFiles, file.1 ∉ edition.assets.map Prod.fst ∧
        Path.parts file.1 = names ∧ file.2 = content) ∨
      ((∀ file ∈ edition.assets, Path.parts file.1 ≠ names) ∧
        (∀ file ∈ edition.pageFiles, Path.parts file.1 ≠ names) ∧
        stored (Site.writtenPlace workingDirectory output ++ names) = some content) := by
  constructor
  · intro lies
    -- Assets are saved behind the pages, so a path that an asset has is decided by the asset.
    by_cases isAsset : ∃ file ∈ edition.assets, Path.parts file.1 = names
    · obtain ⟨file, member, named⟩ := isAsset
      rw [plain.put_asset member named] at lies
      exact .inl ⟨file, member, named, Option.some.inj lies⟩
    · have noAsset : ∀ file ∈ edition.assets, Path.parts file.1 ≠ names :=
        fun file member named => isAsset ⟨file, member, named⟩
      by_cases isPage : ∃ file ∈ edition.pageFiles, Path.parts file.1 = names
      · obtain ⟨file, member, named⟩ := isPage
        have apart : file.1 ∉ edition.assets.map Prod.fst := by
          intro isAsset
          obtain ⟨asset, assetMember, same⟩ := List.mem_map.mp isAsset
          exact noAsset asset assetMember (same ▸ named)
        rw [plain.put_page member named apart] at lies
        exact .inr (.inl ⟨file, member, apart, named, Option.some.inj lies⟩)
      · have noPage : ∀ file ∈ edition.pageFiles, Path.parts file.1 ≠ names :=
          fun file member named => isPage ⟨file, member, named⟩
        rw [plain.put_neither noAsset noPage] at lies
        exact .inr (.inr ⟨noAsset, noPage, lies⟩)
  · rintro (⟨file, member, named, rfl⟩ | ⟨file, member, apart, named, rfl⟩ |
      ⟨noAsset, noPage, lies⟩)
    · exact plain.put_asset member named
    · exact plain.put_page member named apart
    · rw [plain.put_neither noAsset noPage]
      exact lies

end Edition.Plain

/-- What is written for a page in a run. -/
def Page.content (template : String) (generatedAt : Moment) (pages : PageSet) (page : Page) :
    ByteArray :=
  (Template.fill template page.title (page.renderSource Engine.wiki pages).body
    generatedAt).toUTF8

namespace Compilation

variable {config : Config} {generatedAt : Moment} {reads : List Event} {edition : Edition}
  {tree final : Tree} {report : Report}

/-- The first call of a run loads the template, and every page is filled into it. -/
theorem exists_template_of_run_prepare
    (run : (prepare Program.loader config generatedAt).Run reads (.ok edition)) :
    ∃ template, ⟨.load config.template, .ok template⟩ ∈ reads ∧
      edition.pageFiles = edition.report.pages.map fun page =>
        (page.outputPath,
          page.content template generatedAt (PageSet.ofPages edition.report.pages)) := by
  obtain ⟨template, pages, preparedBy⟩ := preparedBy_of_run run
  refine ⟨template, ?_, ?_⟩
  · obtain ⟨paths, _, first⟩ := preparedBy.begins
    exact first.subset List.mem_cons_self
  · rw [Edition.pageFiles, preparedBy.documents, List.map_map, Edition.report, List.map_map]
    apply List.map_congr_left
    intro page member
    simp only [Function.comp_apply, document, Page.content]
    rw [rendered_of_run_prepare run page member]
    rfl

/-- An edition that was prepared in a tree has plain paths. -/
theorem plain_of_run_prepare
    (run : (prepare Program.loader config generatedAt).Run reads (.ok edition))
    (hasNames : tree.HasNames)
    (answers : ∀ event ∈ reads,
      ((Handler.ofTree workingDirectory input excluded output event.call).run tree).1 =
        event.answer) :
    edition.Plain := by
  have named := named_of_run_prepare run
  obtain ⟨template, _, pageFiles⟩ := exists_template_of_run_prepare run
  obtain ⟨_, _, preparedBy⟩ := preparedBy_of_run run
  constructor
  · rw [pageFiles, List.map_map]
    exact named.nodup_outputPath
  · exact preparedBy.assets.nodup
  · rw [pageFiles]
    intro file member
    obtain ⟨page, pageMember, rfl⟩ := List.mem_map.mp member
    exact Path.isPlain_of_isName (named.isName_outputPath pageMember)
  · intro file member
    obtain ⟨pattern, paths, event, listed⟩ := exists_glob_of_run_prepare run member
    obtain ⟨names, below, written⟩ := Loader.exists_names_of_glob (answers _ event) listed
    rw [← written]
    exact Path.isPlain_intercalate (hasNames.isName_of_mem_filesBelow below)

/-- An asset of an edition is one of its report, with the bytes that were loaded. -/
theorem exists_asset_iff {loader : Loader (StateM Tree)} {names : List String}
    {content : ByteArray} (loaded : ∀ asset ∈ edition.assets,
      (loader.loadBinary asset.1).run tree = (.ok asset.2, tree)) :
    (∃ file ∈ edition.assets, Path.parts file.1 = names ∧ file.2 = content) ↔
      ∃ path ∈ edition.report.assets, Path.parts path = names ∧
        (loader.loadBinary path).run tree = (.ok content, tree) := by
  constructor
  · rintro ⟨file, member, named, rfl⟩
    exact ⟨file.1, List.mem_map_of_mem member, named, loaded file member⟩
  · rintro ⟨path, member, named, read⟩
    obtain ⟨asset, assetMember, rfl⟩ := List.mem_map.mp member
    rw [loaded asset assetMember] at read
    cases read
    exact ⟨asset, assetMember, named, rfl⟩

/-- A file of a page lies directly in the output, under the path of a page of the report. -/
theorem exists_page_iff {contentOf : Page → ByteArray} {names : List String}
    {content : ByteArray} (named : Page.Named edition.report.pages)
    (pageFiles : edition.pageFiles =
      edition.report.pages.map fun page => (page.outputPath, contentOf page)) :
    (∃ file ∈ edition.pageFiles, file.1 ∉ edition.assets.map Prod.fst ∧
        Path.parts file.1 = names ∧ file.2 = content) ↔
      ∃ page ∈ edition.report.pages, page.outputPath ∉ edition.report.assets ∧
        [page.outputPath] = names ∧ contentOf page = content := by
  have partsOf {page : Page} (member : page ∈ edition.report.pages) :
      Path.parts page.outputPath = [page.outputPath] :=
    Path.parts_of_isPart (named.isName_outputPath member).toIsPart
  rw [pageFiles]
  constructor
  · rintro ⟨file, member, apart, parts, rfl⟩
    obtain ⟨page, pageMember, rfl⟩ := List.mem_map.mp member
    exact ⟨page, pageMember, apart, (partsOf pageMember).symm.trans parts, rfl⟩
  · rintro ⟨page, member, apart, parts, rfl⟩
    exact ⟨_, List.mem_map_of_mem member, apart, (partsOf member).trans parts, rfl⟩

/-- No file of an edition has a path if none of its report has it. -/
theorem forall_ne_iff {contentOf : Page → ByteArray} {names : List String}
    (named : Page.Named edition.report.pages)
    (pageFiles : edition.pageFiles =
      edition.report.pages.map fun page => (page.outputPath, contentOf page)) :
    ((∀ file ∈ edition.assets, Path.parts file.1 ≠ names) ∧
        ∀ file ∈ edition.pageFiles, Path.parts file.1 ≠ names) ↔
      (∀ path ∈ edition.report.assets, Path.parts path ≠ names) ∧
        ∀ page ∈ edition.report.pages, [page.outputPath] ≠ names := by
  rw [pageFiles, List.forall_mem_map]
  apply and_congr
  · rw [Edition.report, List.forall_mem_map]
  · apply forall₂_congr
    intro page member
    rw [Path.parts_of_isPart (named.isName_outputPath member).toIsPart]

/-- The files of an output.  Behind a run in a tree that succeeds, exactly these files lie
below the output: every asset of the report, with its own bytes; every page of the report
whose path no asset has, with its own body in the template; and, if the path of the output
led nowhere before, what lay there and has the path of neither. -/
theorem run_output_files (hasNames : tree.HasNames)
    (succeeded : (run (Loader.ofDirectory (system workingDirectory) input excluded)
      (Saver.ofDirectory (system workingDirectory) output) config generatedAt).run tree =
        (.ok report, final)) :
    let loader := Loader.ofDirectory (system workingDirectory) input excluded
    let root := Site.writtenPlace workingDirectory output
    let pages := PageSet.ofPages report.pages
    (output ≠ "" →
      final.locate workingDirectory output = .ok root ∧ final.isDirectory root = true) ∧
    (∀ path ∈ report.assets, ∃ content, (loader.loadBinary path).run tree = (.ok content, tree)) ∧
    ∃ template, (loader.load config.template).run tree = (.ok template, tree) ∧
      ∀ names content, final.file? (root ++ names) = some content ↔
        (∃ path ∈ report.assets, Path.parts path = names ∧
          (loader.loadBinary path).run tree = (.ok content, tree)) ∨
        (∃ page ∈ report.pages, page.outputPath ∉ report.assets ∧ [page.outputPath] = names ∧
          page.content template generatedAt pages = content) ∨
        ((∀ path ∈ report.assets, Path.parts path ≠ names) ∧
          (∀ page ∈ report.pages, [page.outputPath] ≠ names) ∧
          (∀ place, tree.locate workingDirectory output ≠ .ok place) ∧
          tree.file? (root ++ names) = some content) := by
  obtain ⟨edition, reads, prepared, cleared, writes, prepareRun, rfl, performsReads, recreated,
    performsWrites, calls, saved⟩ := exists_edition_of_run succeeded
  -- The first phase only reads, so the output is cleared in the tree that the run began with,
  -- and every answer of that phase is about this tree.
  have onlyReads := (uses_prepare config generatedAt).of_run prepareRun
  obtain ⟨rfl, answers⟩ := Handler.Performs.of_reads performsReads onlyReads
  have plain := plain_of_run_prepare prepareRun hasNames answers
  obtain ⟨template, templateRead, pageFiles⟩ := exists_template_of_run_prepare prepareRun
  obtain ⟨_, _, preparedBy⟩ := preparedBy_of_run prepareRun
  obtain ⟨grows, files⟩ := Handler.Performs.files performsWrites saved fun event member =>
    Edition.ne_recreate_of_mem_tail (calls ▸ List.mem_map_of_mem member)
  rw [calls, Edition.filterMap_writes] at files
  intro loader root pages
  have loaded : ∀ asset ∈ edition.assets,
      (loader.loadBinary asset.1).run prepared = (.ok asset.2, prepared) :=
    fun asset member => Prod.ext (answers _ (preparedBy.assets.loaded asset member)) rfl
  refine ⟨?_, ?_, template, ?_, ?_⟩
  · intro nonempty
    obtain ⟨place, located, directory⟩ := Site.isDirectory_of_recreate nonempty recreated
    have placeEq : place = root := locate_eq_resolve located
    rw [placeEq] at located directory
    exact ⟨grows.locate located, grows.directory root directory⟩
  · intro path member
    obtain ⟨asset, assetMember, rfl⟩ := List.mem_map.mp member
    exact ⟨asset.2, loaded asset assetMember⟩
  · have isRead : Call.IsRead (.load config.template) := rfl
    have unchanged : ((Handler.ofTree workingDirectory input excluded output
        (.load config.template)).run prepared).2 = prepared :=
      Handler.run_ofTree_of_isRead isRead prepared
    exact Prod.ext (answers _ templateRead) unchanged
  · intro names content
    have named := named_of_run_prepare prepareRun
    rw [files, plain.put_eq_some_iff, Site.file?_of_recreate recreated,
      exists_asset_iff loaded, exists_page_iff named pageFiles, ← and_assoc,
      forall_ne_iff named pageFiles, and_assoc]

/-- A directory `in` with the page `a` and an asset. -/
def pageAndAsset (asset : String) : Tree :=
  { nodes :=
      [(["in"], .directory),
        (["in", "_template.html"], .file "{{body}}".toUTF8),
        (["in", "a.md"], .file "Hi".toUTF8),
        (["in", asset], .file "kept".toUTF8)] }

/-- A run from `in` to `out`. -/
def runOf (asset : String) : Except CompileError Report × Tree :=
  (run (Loader.ofDirectory (system []) "/in" []) (Saver.ofDirectory (system []) "/out")
    { assets := [asset] } ⟨0⟩).run (pageAndAsset asset)

theorem exists_report_of_runOf {asset : String}
    (reports : (runOf asset).1.toOption.isSome = true) :
    ∃ report, runOf asset = (.ok report, (runOf asset).2) := by
  cases outcome : (runOf asset).1 with
  | error error =>
      rw [outcome] at reports
      cases reports
  | ok report => exact ⟨report, Prod.ext outcome rfl⟩

/-- A page and a style sheet lie in the output next to each other. -/
theorem run_output_files_styleSheet :
    (pageAndAsset "a.css").HasNames ∧
      ∃ report, runOf "a.css" = (.ok report, (runOf "a.css").2) ∧
        report.pages.map Page.outputPath = ["a.html"] ∧ report.assets = ["a.css"] ∧
        ∃ template, ∀ names content, (runOf "a.css").2.file? (["out"] ++ names) = some content ↔
          (∃ path ∈ report.assets, Path.parts path = names ∧
            ((Loader.ofDirectory (system []) "/in" []).loadBinary path).run
              (pageAndAsset "a.css") = (.ok content, pageAndAsset "a.css")) ∨
          (∃ page ∈ report.pages, page.outputPath ∉ report.assets ∧ [page.outputPath] = names ∧
            page.content template ⟨0⟩ (PageSet.ofPages report.pages) = content) ∨
          ((∀ path ∈ report.assets, Path.parts path ≠ names) ∧
            (∀ page ∈ report.pages, [page.outputPath] ≠ names) ∧
            (∀ place, (pageAndAsset "a.css").locate [] "/out" ≠ .ok place) ∧
            (pageAndAsset "a.css").file? (["out"] ++ names) = some content) := by
  have hasNames : (pageAndAsset "a.css").HasNames := by decide +kernel
  have files : (runOf "a.css").1.toOption.map (fun report =>
      (report.pages.map Page.outputPath, report.assets)) = some (["a.html"], ["a.css"]) := by
    decide +kernel
  obtain ⟨report, outcome⟩ := @exists_report_of_runOf "a.css" (by decide +kernel)
  obtain ⟨_, _, template, _, lies⟩ := run_output_files hasNames outcome
  have outRoot : Site.writtenPlace [] "/out" = ["out"] := by decide +kernel
  rw [outRoot] at lies
  rw [outcome] at files
  obtain ⟨pages, assets⟩ := Prod.ext_iff.mp (Option.some.inj files)
  exact ⟨hasNames, report, outcome, pages, assets, template, lies⟩

/-- A run can succeed and leave no file for a page: an asset has taken its place. -/
theorem page_lost_to_asset :
    ∃ report, runOf "a.html" = (.ok report, (runOf "a.html").2) ∧ ∃ page ∈ report.pages,
      (runOf "a.html").2.file? ["out", page.outputPath] ≠
        some (page.content "{{body}}" ⟨0⟩ (PageSet.ofPages report.pages)) := by
  have lost : (runOf "a.html").1.toOption.map (fun report => report.pages.any fun page =>
      (runOf "a.html").2.file? ["out", page.outputPath] ≠
        some (page.content "{{body}}" ⟨0⟩ (PageSet.ofPages report.pages))) = some true := by
    decide +kernel
  obtain ⟨report, outcome⟩ := @exists_report_of_runOf "a.html" (by decide +kernel)
  rw [outcome] at lost
  obtain ⟨page, member, differs⟩ := List.any_eq_true.mp (Option.some.inj lost)
  exact ⟨report, outcome, page, member, of_decide_eq_true differs⟩

end Compilation

end WikiPress
