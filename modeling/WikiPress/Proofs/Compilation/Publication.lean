import WikiPress.Proofs.Compilation.CallOrder

/-!
# What a run leaves behind

A run that is not recorded makes the same calls, and each of them leads from one state to
the next.  So the state behind a run that succeeds is the one behind the writing of its
edition, and with a saver that stores what it is given every file of the edition is there.
The pages of the edition have been rendered as pages of one run: all of them know the names
of all.
-/

namespace WikiPress

open Files

variable {σ : Type}

/-! ## States -/

/-- From one state, actions answer calls as an event list says and end in another. -/
inductive Handler.Performs (handler : Handler (StateM σ)) : σ → List Event → σ → Prop where
  | nil (state : σ) : Performs handler state [] state
  | cons {state final : σ} {event : Event} {trace : List Event}
      (answered : ((handler event.call).run state).1 = event.answer)
      (rest : Performs handler ((handler event.call).run state).2 trace final) :
      Performs handler state (event :: trace) final

theorem Handler.Performs.of_append {handler : Handler (StateM σ)} {state final : σ}
    {first second : List Event} (performs : handler.Performs state (first ++ second) final) :
    ∃ middle, handler.Performs state first middle ∧ handler.Performs middle second final := by
  induction first generalizing state with
  | nil => exact ⟨state, .nil state, performs⟩
  | cons event first ih =>
      cases performs with
      | cons answered rest =>
          obtain ⟨middle, before, behind⟩ := ih rest
          exact ⟨middle, .cons answered before, behind⟩

/-- A run of a program performs one of its paths. -/
theorem Program.exists_performs {α : Type} (handler : Handler (StateM σ)) (program : Program α)
    (state : σ) :
    ∃ trace, Run program trace ((interpret handler program).run state).1 ∧
      handler.Performs state trace ((interpret handler program).run state).2 := by
  induction program generalizing state with
  | done value => exact ⟨[], .done value, .nil state⟩
  | ask call next ih =>
      obtain ⟨trace, run, performs⟩ := ih ((handler call).run state).1 ((handler call).run state).2
      exact ⟨⟨call, ((handler call).run state).1⟩ :: trace, .ask run, .cons rfl performs⟩

/-! ## Stored files -/

/-- A saver stores what it is given: behind a call that succeeds the file is there, and all
files that were there still are. -/
structure Saver.Stores (saver : Saver (StateM σ)) (stored : σ → Path → Option ByteArray) :
    Prop where
  save : ∀ path text state, ((saver.save path text).run state).1 = .ok () →
    stored ((saver.save path text).run state).2 path = some text.toUTF8
  saveBinary : ∀ path content state, ((saver.saveBinary path content).run state).1 = .ok () →
    stored ((saver.saveBinary path content).run state).2 path = some content
  save_keeps : ∀ path text state, ((saver.save path text).run state).1 = .ok () →
    ∀ other, (stored state other).isSome = true →
      (stored ((saver.save path text).run state).2 other).isSome = true
  saveBinary_keeps : ∀ path content state,
    ((saver.saveBinary path content).run state).1 = .ok () →
    ∀ other, (stored state other).isSome = true →
      (stored ((saver.saveBinary path content).run state).2 other).isSome = true

variable {loader : Loader (StateM σ)} {saver : Saver (StateM σ)}
  {stored : σ → Path → Option ByteArray}

/-- What has been stored stays while files are saved. -/
theorem Saver.Stores.isSome_of_performs (stores : saver.Stores stored) {state final : σ}
    {trace : List Event} (performs : (Handler.of loader saver).Performs state trace final)
    (saved : ∀ event ∈ trace, event.saved? = some (.ok ()) ∧ event.call ≠ .recreate)
    {path : Path} (isStored : (stored state path).isSome = true) :
    (stored final path).isSome = true := by
  induction performs with
  | nil state => exact isStored
  | @cons state final event trace answered rest ih =>
      obtain ⟨⟨answerOk, notCleared⟩, savedRest⟩ := List.forall_mem_cons.mp saved
      apply ih savedRest
      rcases event with ⟨call, answer⟩
      cases call with
      | save other text =>
          cases answerOk
          exact stores.save_keeps other text state answered path isStored
      | saveBinary other content =>
          cases answerOk
          exact stores.saveBinary_keeps other content state answered path isStored
      | recreate => exact absurd rfl notCleared
      | _ => cases answerOk

/-- Every text that is saved is there in the end. -/
theorem Saver.Stores.isSome_of_save (stores : saver.Stores stored) {state final : σ}
    {trace : List Event} (performs : (Handler.of loader saver).Performs state trace final)
    (saved : ∀ event ∈ trace, event.saved? = some (.ok ()) ∧ event.call ≠ .recreate)
    {path : Path} {text : String} (member : .save path text ∈ trace.map Event.call) :
    (stored final path).isSome = true := by
  induction performs with
  | nil state => cases member
  | @cons state final event trace answered rest ih =>
      obtain ⟨⟨answerOk, _⟩, savedRest⟩ := List.forall_mem_cons.mp saved
      rcases List.mem_cons.mp member with here | later
      · apply stores.isSome_of_performs rest savedRest
        rcases event with ⟨call, answer⟩
        cases here
        cases answerOk
        exact Option.isSome_iff_exists.mpr ⟨_, stores.save path text state answered⟩
      · exact ih savedRest later

/-! ## Pages of one run -/

theorem Page.rendered_of_run {includeLimit : Nat} {context next : RenderContext}
    {page filled : Page} {rendered : RenderedPage} {reads : List Event}
    (run : (page.render Program.loader includeLimit context).Run reads
      (.ok rendered, filled, next)) :
    rendered = renderSource Engine.wiki context.pages filled ∧ next.pages = context.pages := by
  obtain ⟨loaded, _, _, restRun⟩ := Program.run_call_bind_iff.mp run
  cases loaded with
  | error error => cases restRun
  | ok source =>
      obtain ⟨_, ⟨expanded, fragments⟩, _, _, _, lastRun⟩ := Program.run_bind_iff.mp restRun
      cases expanded with
      | error error => cases lastRun
      | ok expanded =>
          have ended := (Program.run_done_iff.mp lastRun).2
          have filledEq : filled = page.withSource source expanded :=
            congrArg (fun outcome => outcome.2.1) ended
          have nextEq : next = { context with fragments } :=
            congrArg (fun outcome => outcome.2.2) ended
          have renderedEq := Except.ok.inj (congrArg Prod.fst ended)
          rw [renderedEq, filledEq, nextEq]
          exact ⟨rfl, rfl⟩

/-- Behind its clearing, the writing of an edition only saves files. -/
theorem Edition.ne_recreate_of_mem_tail {edition : Edition} {call : Call}
    (member : call ∈ edition.writes.tail) : call ≠ .recreate := by
  rcases List.mem_append.mp member with isDocument | isAsset
  · obtain ⟨document, _, rfl⟩ := List.mem_map.mp isDocument
    exact nofun
  · obtain ⟨asset, _, rfl⟩ := List.mem_map.mp isAsset
    exact nofun

namespace Compilation

theorem rendered_of_run_renderPages {includeLimit : Nat} {context : RenderContext}
    {pages : List Page} {reads : List Event} {rendered : List (Page × RenderedPage)}
    (run : (renderPages Program.loader includeLimit context pages).Run reads (.ok rendered)) :
    ∀ page ∈ rendered, page.2 = Page.renderSource Engine.wiki context.pages page.1 := by
  induction pages generalizing context reads rendered with
  | nil =>
      obtain ⟨_, ended⟩ := Program.run_done_iff.mp run
      cases ended
      exact nofun
  | cons page pages ih =>
      obtain ⟨_, ⟨answer, filled, next⟩, _, _, firstRun, secondRun⟩ := Program.run_bind_iff.mp run
      cases answer with
      | error error => cases secondRun
      | ok body =>
          obtain ⟨_, result, _, _, othersRun, lastRun⟩ := Program.run_bind_iff.mp secondRun
          obtain ⟨_, ended⟩ := Program.run_done_iff.mp lastRun
          cases result with
          | error error => cases ended
          | ok following =>
              cases ended
              obtain ⟨bodyEq, pagesEq⟩ := Page.rendered_of_run firstRun
              have others := ih othersRun
              rw [pagesEq] at others
              exact List.forall_mem_cons.mpr ⟨bodyEq, others⟩

theorem map_id_of_forall₂ {reads : List Event} {pages : List Page}
    {rendered : List (Page × RenderedPage)}
    (inOrder : List.Forall₂ (fun page filled => page.FilledBy reads filled.1) pages rendered) :
    (rendered.map Prod.fst).map Page.id = pages.map Page.id := by
  induction inOrder with
  | nil => rfl
  | cons filledBy _ ih => rw [List.map_cons, List.map_cons, List.map_cons, ih, filledBy.id_eq]

/-- All pages of an edition are rendered with the names of all its pages. -/
theorem rendered_of_run_prepare {config : Config} {generatedAt : Moment} {reads : List Event}
    {edition : Edition}
    (run : (prepare Program.loader config generatedAt).Run reads (.ok edition)) :
    ∀ page ∈ edition.rendered,
      page.2 = Page.renderSource Engine.wiki (PageSet.ofPages edition.report.pages) page.1 := by
  obtain ⟨template, pages, rendered, assets, discoverReads, pageReads, assetReads, _, _, pagesRun,
    _, rfl⟩ := steps_of_run_prepare run
  have sameNames : PageSet.ofPages (rendered.map Prod.fst) = PageSet.ofPages pages :=
    congrArg PageSet.mk (map_id_of_forall₂ (forall₂_of_run_renderPages pagesRun))
  intro page member
  change page.2 = Page.renderSource Engine.wiki (PageSet.ofPages (rendered.map Prod.fst)) page.1
  rw [sameNames]
  exact rendered_of_run_renderPages pagesRun page member

/-! ## Runs that succeed -/

/-- A run that succeeds has prepared an edition, cleared the output and then saved the files
of the edition, one after the other. -/
theorem exists_edition_of_run {config : Config} {generatedAt : Moment} {state final : σ}
    {report : Report}
    (succeeded : (run loader saver config generatedAt).run state = (.ok report, final)) :
    ∃ edition reads prepared cleared writes,
      (prepare Program.loader config generatedAt).Run reads (.ok edition) ∧
      report = edition.report ∧
      (Handler.of loader saver).Performs state reads prepared ∧
      (saver.recreate).run prepared = (.ok (), cleared) ∧
      (Handler.of loader saver).Performs cleared writes final ∧
      writes.map Event.call = edition.writes.tail ∧
      ∀ event ∈ writes, event.saved? = some (.ok ()) := by
  obtain ⟨trace, path, performs⟩ := Program.exists_performs (Handler.of loader saver)
    (run Program.loader Program.saver config generatedAt) state
  rw [interpret_run, succeeded] at path performs
  obtain ⟨reads, writes, rfl, _, phases⟩ := phases_of_run path
  obtain ⟨prepared, performsReads, performsWrites⟩ := performs.of_append
  rcases phases with ⟨error, _, _, result⟩ | ⟨edition, outcome, prepareRun, writing, result⟩
  · cases result
  · cases outcome with
    | error cause => cases result
    | ok _ =>
        cases result
        obtain ⟨callsEq, allSaved⟩ := writing.of_ok rfl
        cases performsWrites with
        | nil => cases callsEq
        | @cons _ _ event trace answered rest =>
            obtain ⟨eventSaved, restSaved⟩ := List.forall_mem_cons.mp allSaved
            rw [List.map_cons] at callsEq
            obtain ⟨cleared, restCalls⟩ := List.cons.inj callsEq
            rcases event with ⟨call, answer⟩
            cases cleared
            cases eventSaved
            refine ⟨edition, reads, prepared, _, trace, prepareRun, rfl, performsReads, ?_, rest,
              restCalls, restSaved⟩
            exact Prod.ext answered rfl

end Compilation

end WikiPress
