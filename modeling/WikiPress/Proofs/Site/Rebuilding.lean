import WikiPress.Proofs.Site.Editions
import WikiPress.Proofs.Site.Publishing

/-!
# Building a site again

What a site is compiled to does not depend on what lies in its output when a build begins:
the output may be missing, stale or edited by hand.  A build that has succeeded can be made
again and changes nothing then.
-/

namespace WikiPress.Site

open Files Files.Tree Compilation

variable {workingDirectory : Place} {site : Site} {generatedAt : Moment}
  {first second tree : Tree}

/-- The paths that a site gives by name lead outside of its output: that of its configuration
file, that of the template, and those of the fragments that its pages ask for. -/
structure NamesOutside (workingDirectory : Place) (generatedAt : Moment) (tree : Tree)
    (site : Site) : Prop where
  configFile : ∀ path ∈ site.configFile,
    LeadsOutside workingDirectory (Path.parts site.output) path
  template : ∀ config, site.configIn workingDirectory tree = .ok config →
    LeadsOutside workingDirectory (Path.parts site.output) (Path.join site.input config.template)
  fragment : ∀ config, site.configIn workingDirectory tree = .ok config → ∀ name,
    Call.load (Include.fragmentPath name) ∈
        site.calls workingDirectory generatedAt config tree →
      LeadsOutside workingDirectory (Path.parts site.output)
        (Path.join site.input (Include.fragmentPath name))

/-! ## The same edition -/

/-- In trees that differ in the output alone a build comes to the same. -/
theorem NamesOutside.editionIn_of_sameOutside
    (named : site.NamesOutside workingDirectory generatedAt first)
    (stands : Stands workingDirectory first site) (firstRoom : HasRoom site.output first)
    (secondRoom : HasRoom site.output second)
    (same : SameOutside (Path.parts site.output) first second) :
    site.editionIn workingDirectory generatedAt second =
      site.editionIn workingDirectory generatedAt first :=
  editionIn_congr stands firstRoom secondRoom same.sameSources
    (fun path given => (named.configFile path given).agreeAlong same)
    (fun config read => (named.template config read).agreeAlong same)
    fun config read name asked => (named.fragment config read name asked).agreeAlong same

/-- What led to an edition has been loaded, so it is there where the sources are the same. -/
theorem NamesOutside.editionIn_of_sameSources {edition : Edition}
    (named : site.NamesOutside workingDirectory generatedAt first)
    (stands : Stands workingDirectory first site) (firstRoom : HasRoom site.output first)
    (secondRoom : HasRoom site.output second)
    (sources : SameSources (Path.parts site.output) first second)
    (made : site.editionIn workingDirectory generatedAt first = .ok edition) :
    site.editionIn workingDirectory generatedAt second = .ok edition := by
  have loaded {config : Config} (read : site.configIn workingDirectory first = .ok config)
      {path : Path} (asked : .load path ∈ site.calls workingDirectory generatedAt config first)
      (leads : LeadsOutside workingDirectory (Path.parts site.output)
        (Path.join site.input path)) :
      AgreeAlong workingDirectory (Path.join site.input path) first second := by
    obtain ⟨text, answer⟩ := exists_text_of_editionIn made read asked
    exact leads.agreeAlong_of_lies firstRoom.fileTree sources (isSome_of_answers_load answer)
  rw [← made]
  refine editionIn_congr stands firstRoom secondRoom sources (fun path given => ?_)
    (fun config read => ?_) fun config read name asked => ?_
  · exact (named.configFile path given).agreeAlong_of_lies firstRoom.fileTree sources
      (isSome_of_editionIn made given)
  · exact loaded read load_template_mem_calls (named.template config read)
  · exact loaded read asked (named.fragment config read name asked)

/-! ## Builds -/

/-- Builds answer the same in trees that differ in the output alone, and leave the same nodes
when they succeed. -/
theorem NamesOutside.run_compile_congr
    (named : site.NamesOutside workingDirectory generatedAt first)
    (stands : Stands workingDirectory first site) (firstRoom : HasRoom site.output first)
    (secondRoom : HasRoom site.output second)
    (same : SameOutside (Path.parts site.output) first second) :
    ((site.compile (system workingDirectory) generatedAt).run first).1 =
        ((site.compile (system workingDirectory) generatedAt).run second).1 ∧
      ∀ report, ((site.compile (system workingDirectory) generatedAt).run first).1 = .ok report →
        ((site.compile (system workingDirectory) generatedAt).run first).2.node? =
          ((site.compile (system workingDirectory) generatedAt).run second).2.node? := by
  rw [run_compile, run_compile,
    named.editionIn_of_sameOutside stands firstRoom secondRoom same]
  cases site.editionIn workingDirectory generatedAt first with
  | error error => exact ⟨rfl, nofun⟩
  | ok edition =>
      obtain ⟨answers, nodes⟩ := @run_publish_congr workingDirectory site.output edition _ _
        stands.output firstRoom secondRoom same
      simp only [saver]
      rcases firstRun : (publish (Saver.ofDirectory (system workingDirectory) site.output)
        edition).run first with ⟨answer, firstAfter⟩
      rcases secondRun : (publish (Saver.ofDirectory (system workingDirectory) site.output)
        edition).run second with ⟨secondAnswer, secondAfter⟩
      rw [firstRun, secondRun] at answers nodes
      cases answers
      cases answer with
      | error error => exact ⟨rfl, nofun⟩
      | ok _ => exact ⟨rfl, fun _ _ => nodes rfl⟩

/-- A build that fails before it saves anything changes nothing. -/
theorem run_compile_of_error {error : SiteError}
    (failed : ((site.compile (system workingDirectory) generatedAt).run tree).1 = .error error)
    (notSaving : ∀ cause, error ≠ .compilation (.save cause)) :
    ((site.compile (system workingDirectory) generatedAt).run tree).2 = tree := by
  rw [run_compile] at failed ⊢
  cases made : site.editionIn workingDirectory generatedAt tree with
  | error cause => rfl
  | ok edition =>
      rw [made] at failed
      simp only at failed
      split at failed
      · cases failed
        exact absurd rfl (notSaving _)
      · cases failed

/-- No build makes, changes or removes a file outside of the output. -/
theorem file?_run_compile (isRoot : IsRoot site.output) (room : HasRoom site.output tree)
    {place : Place} (outside : ¬ Path.parts site.output <+: place) :
    ((site.compile (system workingDirectory) generatedAt).run tree).2.file? place =
      tree.file? place := by
  rw [run_compile]
  cases made : site.editionIn workingDirectory generatedAt tree with
  | error error => rfl
  | ok edition =>
      have kept := @file?_run_publish workingDirectory site.output tree edition isRoot room
        (plain_of_editionIn room.fileTree made) _ outside
      simp only [saver]
      split
      · rename_i published
        rwa [published] at kept
      · rename_i published
        rwa [published] at kept

/-- A build that has succeeded succeeds again with the same report, and leaves all as it is. -/
theorem NamesOutside.run_compile_again {report : Report} {after : Tree}
    (named : site.NamesOutside workingDirectory generatedAt tree)
    (stands : Stands workingDirectory tree site) (room : HasRoom site.output tree)
    (succeeded : (site.compile (system workingDirectory) generatedAt).run tree =
      (.ok report, after)) :
    ∃ again, (site.compile (system workingDirectory) generatedAt).run after =
      (.ok report, again) ∧ again.node? = after.node? := by
  have nonroot : Path.parts site.output ≠ [] := fun empty =>
    stands.apart (empty ▸ List.nil_prefix)
  rw [run_compile] at succeeded
  cases made : site.editionIn workingDirectory generatedAt tree with
  | error error =>
      rw [made] at succeeded
      cases succeeded
  | ok edition =>
      rw [made] at succeeded
      simp only [saver] at succeeded
      split at succeeded
      · cases succeeded
      · rename_i published
        cases succeeded
        obtain ⟨afterRoom, sources, again, publishedAgain, nodes⟩ :=
          run_publish_again stands.output nonroot room
            (plain_of_editionIn room.fileTree made) published
        refine ⟨again, ?_, nodes⟩
        rw [run_compile, named.editionIn_of_sameSources stands room afterRoom sources made]
        simp only [saver]
        rw [publishedAgain]

/-- What a build answers and leaves in its output does not depend on what lay there.  In two
trees that differ in the output alone a build gives the same report or fails for the same
reason; if it succeeds, the outputs have the same nodes afterwards, and it can be made again
with the same report, leaving the same output; if it fails before it saves anything, nothing
has changed; and no file outside of the output is made, changed or removed. -/
theorem compile_independent_of_output (ordinary : ∀ name ∈ workingDirectory, Path.IsName name)
    {configFile : Option Path} {input output : Path}
    (located : ((locate (system workingDirectory) configFile input output).run first).1 =
      .ok site)
    (noAbove : ".." ∉ Path.parts site.output)
    (firstRoom : HasRoom site.output first) (secondRoom : HasRoom site.output second)
    (same : SameOutside (Path.parts site.output) first second)
    (named : site.NamesOutside workingDirectory generatedAt first) :
    let root := Path.parts site.output
    let build := (site.compile (system workingDirectory) generatedAt).run
    (build first).1 = (build second).1 ∧
    (∀ report, (build first).1 = .ok report →
      (∀ names, (build first).2.node? (root ++ names) = (build second).2.node? (root ++ names)) ∧
      (build (build first).2).1 = .ok report ∧
      ∀ names, (build (build first).2).2.node? (root ++ names) =
        (build first).2.node? (root ++ names)) ∧
    (∀ error, (build first).1 = .error error → (∀ cause, error ≠ .compilation (.save cause)) →
      (build first).2 = first ∧ (build second).2 = second) ∧
    ∀ place, ¬ root <+: place →
      (build first).2.file? place = first.file? place ∧
      (build second).2.file? place = second.file? place := by
  have stands := stands_of_locate ordinary located noAbove
  obtain ⟨answers, nodes⟩ := named.run_compile_congr stands firstRoom secondRoom same
  intro root build
  refine ⟨answers, ?_, ?_, ?_⟩
  · intro report succeeded
    obtain ⟨again, run, kept⟩ :=
      named.run_compile_again stands firstRoom (Prod.ext succeeded rfl)
    have runAgain : build (build first).2 = (.ok report, again) := run
    rw [runAgain]
    exact ⟨fun names => congrFun (nodes report succeeded) _, rfl, fun names => congrFun kept _⟩
  · intro error failed notSaving
    exact ⟨run_compile_of_error failed notSaving,
      run_compile_of_error (answers.symm.trans failed) notSaving⟩
  · intro place outside
    exact ⟨file?_run_compile stands.output firstRoom outside,
      file?_run_compile stands.output secondRoom outside⟩

/-- The directory `/in` with a page that asks for a fragment. -/
def unbuilt : Tree :=
  { nodes :=
      [(["in"], .directory),
        (["in", "_template.html"], .file "{{body}}".toUTF8),
        (["in", "_greeting.html"], .file "Hi".toUTF8),
        (["in", "a.md"], .file "{{greeting}}".toUTF8)] }

/-- The same directory with an output that holds a stale page. -/
def built : Tree :=
  (unbuilt.insert ["in", "out"] .directory).insert ["in", "out", "old.html"]
    (.file "Ho".toUTF8)

/-- The site of `/in` with an output that lies inside. -/
def innerSite : Site :=
  { input := "/in", output := "/in/out" }

theorem parts_innerSite_output : Path.parts innerSite.output = ["in", "out"] := by
  decide +kernel

theorem hasRoom_unbuilt : HasRoom innerSite.output unbuilt := by
  refine ⟨by decide +kernel, .inl ?_⟩
  rw [parts_innerSite_output]
  rfl

theorem hasRoom_built : HasRoom innerSite.output built := by
  refine ⟨by decide +kernel, .inr ?_⟩
  rw [parts_innerSite_output]
  rfl

theorem sameOutside_built : SameOutside (Path.parts innerSite.output) unbuilt built := by
  rw [parts_innerSite_output]
  refine SameOutside.symm (.trans (sameOutside_insert _ _ (by decide) (by decide))
    (sameOutside_insert _ _ (by decide) (by decide)))

/-- The stale page is gone after the build, which reports the page of `/in` alone. -/
theorem compile_independent_of_output_stalePage :
    ((locate (system []) none "in" "in/out").run unbuilt).1 = .ok innerSite ∧
      ".." ∉ Path.parts innerSite.output ∧
      HasRoom innerSite.output unbuilt ∧ HasRoom innerSite.output built ∧
      SameOutside (Path.parts innerSite.output) unbuilt built ∧
      innerSite.NamesOutside [] ⟨0⟩ unbuilt ∧
      ∃ report, ((innerSite.compile (system []) ⟨0⟩).run unbuilt).1 = .ok report ∧
        ((innerSite.compile (system []) ⟨0⟩).run built).1 = .ok report ∧
        report.pages.map Page.outputPath = ["a.html"] ∧
        ∀ names, ((innerSite.compile (system []) ⟨0⟩).run unbuilt).2.node?
            (["in", "out"] ++ names) =
          ((innerSite.compile (system []) ⟨0⟩).run built).2.node? (["in", "out"] ++ names) := by
  have located : ((locate (system []) none "in" "in/out").run unbuilt).1 = .ok innerSite := by
    decide +kernel
  have noAbove : ".." ∉ Path.parts innerSite.output := by decide +kernel
  have config : innerSite.configIn [] unbuilt = .ok {} := by decide +kernel
  have loads : (innerSite.calls [] ⟨0⟩ {} unbuilt).all (fun call => match call with
      | .load path => decide (LeadsOutside [] (Path.parts innerSite.output)
          (Path.join innerSite.input path))
      | _ => true) = true := by decide +kernel
  have outside (config' : Config) (read : innerSite.configIn [] unbuilt = .ok config')
      (path : Path) (asked : .load path ∈ innerSite.calls [] ⟨0⟩ config' unbuilt) :
      LeadsOutside [] (Path.parts innerSite.output) (Path.join innerSite.input path) := by
    rw [config] at read
    cases read
    exact of_decide_eq_true (List.all_eq_true.mp loads _ asked)
  have named : innerSite.NamesOutside [] ⟨0⟩ unbuilt :=
    ⟨nofun, fun config read => outside config read _ load_template_mem_calls,
      fun config read name asked => outside config read _ asked⟩
  have reported : ((innerSite.compile (system []) ⟨0⟩).run unbuilt).1.toOption.map
      (fun report => report.pages.map Page.outputPath) = some ["a.html"] := by
    decide +kernel
  obtain ⟨answers, succeeds, _⟩ := compile_independent_of_output (by decide) located noAbove
    hasRoom_unbuilt hasRoom_built sameOutside_built named
  refine ⟨located, noAbove, hasRoom_unbuilt, hasRoom_built, sameOutside_built, named, ?_⟩
  cases answer : ((innerSite.compile (system []) ⟨0⟩).run unbuilt).1 with
  | error error =>
      rw [answer] at reported
      cases reported
  | ok report =>
      rw [answer] at reported answers
      obtain ⟨nodes, _, _⟩ := succeeds report answer
      rw [parts_innerSite_output] at nodes
      exact ⟨report, rfl, answers.symm, Option.some.inj reported, nodes⟩

/-- The same site with the output itself given as its configuration file. -/
def selfConfiguredSite : Site :=
  { innerSite with configFile := some "/in/out" }

/-- The output must not be given as the configuration file either: a directory is there or
not, which are different failures. -/
theorem compile_depends_on_output_configFile :
    ((locate (system []) (some "/in/out") "in" "in/out").run unbuilt).1 =
        .ok selfConfiguredSite ∧
      ".." ∉ Path.parts selfConfiguredSite.output ∧
      HasRoom selfConfiguredSite.output unbuilt ∧ HasRoom selfConfiguredSite.output built ∧
      SameOutside (Path.parts selfConfiguredSite.output) unbuilt built ∧
      (∀ path ∈ selfConfiguredSite.configFile, ".." ∉ Path.parts path ∧
        writtenPlace [] path = Path.parts selfConfiguredSite.output) ∧
      ((selfConfiguredSite.compile (system []) ⟨0⟩).run unbuilt).1 =
        .error (.configuration (.unreadable .notFound)) ∧
      ((selfConfiguredSite.compile (system []) ⟨0⟩).run built).1 =
        .error (.configuration (.unreadable .isDirectory)) := by
  refine ⟨by decide +kernel, by decide +kernel, hasRoom_unbuilt, hasRoom_built,
    sameOutside_built, ?_, ?_, ?_⟩
  · rintro path ⟨⟩
    decide +kernel
  · have failed : selfConfiguredSite.configIn [] unbuilt =
        .error (.configuration (.unreadable .notFound)) := by decide +kernel
    rw [run_compile, editionIn, failed]
  · have failed : selfConfiguredSite.configIn [] built =
        .error (.configuration (.unreadable .isDirectory)) := by decide +kernel
    rw [run_compile, editionIn, failed]

end WikiPress.Site
