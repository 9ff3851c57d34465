import WikiPress.Proofs.Call.Recording
import WikiPress.Proofs.Call.Usage
import WikiPress.Proofs.Compilation.Preparation

/-!
# The order of the calls of a run

A run reads first and writes afterwards.  It writes only when everything has been
loaded and rendered, so a run that fails before has left the last output in place; and
what it writes is a fixed list of calls, up to the first that fails.
-/

namespace WikiPress

open Files

/-- What a saver answered, if the call went to a saver. -/
def Event.saved? : Event → Option (Except SaveError Unit)
  | ⟨.save _ _, answer⟩ => some answer
  | ⟨.saveBinary _ _, answer⟩ => some answer
  | ⟨.recreate, answer⟩ => some answer
  | _ => none

/-- A call that was answered by a saver did not go to a loader. -/
theorem Event.not_isRead_of_saved {event : Event} {answer : Except SaveError Unit}
    (saved : event.saved? = some answer) : ¬ event.call.IsRead := by
  rcases event with ⟨call, given⟩
  cases call <;> simp_all [Event.saved?, Call.IsRead, Call.isRead]

/-- The calls that put an edition in place of the last one. -/
def Edition.writes (edition : Edition) : List Call :=
  .recreate
    :: (edition.documents.map fun (path, html) => .save path html)
    ++ edition.assets.map fun (path, content) => .saveBinary path content

/-! ## Writing up to the first failure -/

/-- Calls of a saver are made one after the other, up to the first that fails. -/
inductive Writing : List Call → List Event → Except SaveError Unit → Prop where
  | finished : Writing [] [] (.ok ())
  | failed {event : Event} {cause : SaveError} (calls : List Call)
      (saved : event.saved? = some (.error cause)) :
      Writing (event.call :: calls) [event] (.error cause)
  | wrote {event : Event} {calls : List Call} {trace : List Event}
      {result : Except SaveError Unit} (saved : event.saved? = some (.ok ()))
      (rest : Writing calls trace result) :
      Writing (event.call :: calls) (event :: trace) result

theorem Writing.not_isRead {calls : List Call} {trace : List Event}
    {result : Except SaveError Unit} (writing : Writing calls trace result) :
    ∀ event ∈ trace, ¬ event.call.IsRead := by
  induction writing with
  | finished => simp
  | failed calls saved =>
      intro event member
      rw [List.mem_singleton.mp member]
      exact Event.not_isRead_of_saved saved
  | wrote saved rest ih =>
      intro event member
      rcases List.mem_cons.mp member with rfl | later
      · exact Event.not_isRead_of_saved saved
      · exact ih event later

theorem Writing.of_ok {calls : List Call} {trace : List Event}
    {result : Except SaveError Unit} (writing : Writing calls trace result)
    (succeeded : result = .ok ()) :
    trace.map Event.call = calls ∧ ∀ event ∈ trace, event.saved? = some (.ok ()) := by
  induction writing with
  | finished => simp
  | failed calls saved => cases succeeded
  | wrote saved rest ih =>
      obtain ⟨callsEq, allSaved⟩ := ih succeeded
      constructor
      · rw [List.map_cons, callsEq]
      · intro event member
        rcases List.mem_cons.mp member with rfl | later
        · exact saved
        · exact allSaved event later

theorem Writing.of_error {calls : List Call} {trace : List Event}
    {result : Except SaveError Unit} {cause : SaveError}
    (writing : Writing calls trace result) (failed : result = .error cause) :
    ∃ done last, trace = done ++ [last] ∧ trace.map Event.call <+: calls ∧
      (∀ event ∈ done, event.saved? = some (.ok ())) ∧
      last.saved? = some (.error cause) := by
  induction writing with
  | finished => cases failed
  | @failed event _ calls saved =>
      cases failed
      exact ⟨[], event, rfl, List.prefix_append [event.call] calls, by simp, saved⟩
  | @wrote event calls trace _ saved rest ih =>
      obtain ⟨done, last, rfl, isPrefix, allSaved, lastFailed⟩ := ih failed
      refine ⟨event :: done, last, rfl, ?_, ?_, lastFailed⟩
      · rw [List.map_cons]
        exact List.cons_prefix_cons.mpr ⟨rfl, isPrefix⟩
      · intro earlier member
        rcases List.mem_cons.mp member with rfl | later
        · exact saved
        · exact allSaved earlier later

namespace Compilation

/-! ## The second phase -/

/-- An action makes one call of a saver, and ends with its answer. -/
def Performs (action : Program (Except SaveError Unit)) (call : Call) : Prop :=
  ∀ trace result, action.Run trace result →
    ∃ event, trace = [event] ∧ event.call = call ∧ event.saved? = some result

theorem performs_saver :
    (∀ path text, Performs (Program.saver.save path text) (.save path text)) ∧
      (∀ path content,
        Performs (Program.saver.saveBinary path content) (.saveBinary path content)) ∧
      Performs Program.saver.recreate .recreate := by
  refine ⟨?_, ?_, ?_⟩
  · rintro path text trace result (_ | ⟨⟨⟩⟩)
    exact ⟨⟨.save path text, result⟩, rfl, rfl, rfl⟩
  · rintro path content trace result (_ | ⟨⟨⟩⟩)
    exact ⟨⟨.saveBinary path content, result⟩, rfl, rfl, rfl⟩
  · rintro trace result (_ | ⟨⟨⟩⟩)
    exact ⟨⟨.recreate, result⟩, rfl, rfl, rfl⟩

theorem publication_performs (edition : Edition) :
    List.Forall₂ Performs (publication Program.saver edition) edition.writes := by
  obtain ⟨save, saveBinary, recreate⟩ := performs_saver
  refine .cons recreate (List.rel_append ?_ ?_)
  · rw [List.forall₂_map_left_iff, List.forall₂_map_right_iff, List.forall₂_same]
    exact fun document _ => save document.1 document.2
  · rw [List.forall₂_map_left_iff, List.forall₂_map_right_iff, List.forall₂_same]
    exact fun asset _ => saveBinary asset.1 asset.2

theorem writing_of_run_runAll {actions : List (Program (Except SaveError Unit))}
    {calls : List Call} (performs : List.Forall₂ Performs actions calls) {trace : List Event}
    {result : Except SaveError Unit} (run : (runAll actions).Run trace result) :
    Writing calls trace result := by
  induction performs generalizing trace with
  | nil =>
      obtain ⟨rfl, rfl⟩ := Program.run_done_iff.mp run
      exact .finished
  | cons performed rest ih =>
      obtain ⟨first, answer, second, rfl, firstRun, secondRun⟩ := Program.run_bind_iff.mp run
      obtain ⟨event, rfl, rfl, saved⟩ := performed first answer firstRun
      cases answer with
      | error error =>
          obtain ⟨rfl, rfl⟩ := Program.run_done_iff.mp secondRun
          exact .failed _ saved
      | ok _ => exact .wrote saved (ih secondRun)

/-! ## Both phases -/

/-- A path of a run is one of the first phase, which only reads, and, if that ends with
an edition, the writing of this edition. -/
theorem phases_of_run {config : Config} {generatedAt : Moment} {trace : List Event}
    {result : Except CompileError Report}
    (run : (run Program.loader Program.saver config generatedAt).Run trace result) :
    ∃ reads writes, trace = reads ++ writes ∧ (∀ event ∈ reads, event.call.IsRead) ∧
      ((∃ error, (prepare Program.loader config generatedAt).Run reads (.error error) ∧
          writes = [] ∧ result = .error error) ∨
        ∃ edition outcome,
          (prepare Program.loader config generatedAt).Run reads (.ok edition) ∧
            Writing edition.writes writes outcome ∧
            result = (outcome.map fun _ => edition.report).mapError CompileError.save) := by
  obtain ⟨reads, prepared, writes, rfl, prepareRun, restRun⟩ := Program.run_bind_iff.mp run
  refine ⟨reads, writes, rfl, (uses_prepare config generatedAt).of_run prepareRun, ?_⟩
  cases prepared with
  | error error =>
      obtain ⟨rfl, rfl⟩ := Program.run_done_iff.mp restRun
      exact .inl ⟨error, prepareRun, rfl, rfl⟩
  | ok edition =>
      obtain ⟨writes, outcome, none, rfl, publishRun, lastRun⟩ :=
        Program.run_bind_iff.mp restRun
      have writing := writing_of_run_runAll (publication_performs edition) publishRun
      refine .inr ⟨edition, outcome, prepareRun, ?_, ?_⟩
      · cases outcome <;> obtain ⟨rfl, _⟩ := Program.run_done_iff.mp lastRun <;>
          rwa [List.append_nil]
      · cases outcome <;> exact (Program.run_done_iff.mp lastRun).2

variable {σ : Type}

/-- A run reads before it writes.  If it fails before it writes, it has written nothing;
if it succeeds, it has cleared the output, saved every discovered page in the order of
discovery and then every asset in the order of its report, under distinct paths; and
if a write fails, that was the last call, and the calls up to it are the first ones
of this list. -/
theorem run_recorded (loader : Loader (StateM σ)) (saver : Saver (StateM σ))
    (config : Config) (generatedAt : Moment) (state : σ) :
    let ran := (run loader saver config generatedAt).run state
    ∃ reads writes,
      ((run loader.recorded saver.recorded config generatedAt).run []).run state =
        ((ran.1, reads ++ writes), ran.2) ∧
      (∀ event ∈ reads, event.call.IsRead) ∧
      (∀ event ∈ writes, ¬ event.call.IsRead) ∧
      match ran.1 with
      | .ok report => ∃ (edition : Edition) (template : String) (pages : List Page),
          edition.PreparedBy config generatedAt reads template pages ∧
          edition.documents.map Prod.fst = pages.map Page.outputPath ∧
          report = edition.report ∧ report.assets.Nodup ∧
          writes.map Event.call = edition.writes ∧
          ∀ event ∈ writes, event.saved? = some (.ok ())
      | .error (.save cause) => ∃ (edition : Edition) (template : String) (pages : List Page)
          (done : List Event) (failed : Event),
          edition.PreparedBy config generatedAt reads template pages ∧
          writes = done ++ [failed] ∧
          writes.map Event.call <+: edition.writes ∧
          (∀ event ∈ done, event.saved? = some (.ok ())) ∧
          failed.saved? = some (.error cause)
      | .error _ => writes = [] := by
  intro ran
  obtain ⟨trace, path, recorded⟩ := Program.interpret_recorded (Handler.of loader saver)
    (run Program.loader Program.saver config generatedAt) [] state
  rw [← Handler.of_recorded, interpret_run, interpret_run, List.nil_append] at recorded
  rw [interpret_run] at path
  obtain ⟨reads, writes, rfl, onlyReads, phases⟩ := phases_of_run path
  refine ⟨reads, writes, recorded, onlyReads, ?_⟩
  rcases phases with
    ⟨error, prepareRun, rfl, result⟩ | ⟨edition, outcome, prepareRun, writing, result⟩
  · refine ⟨by simp, ?_⟩
    rw [show ran.1 = .error error from result]
    cases error with
    | save cause => exact absurd prepareRun ne_save_of_run_prepare
    | load cause => rfl
    | duplicate clash => rfl
    | page path cause => rfl
  · refine ⟨writing.not_isRead, ?_⟩
    obtain ⟨template, pages, preparedBy⟩ := preparedBy_of_run prepareRun
    rw [show ran.1 = _ from result]
    cases outcome with
    | ok _ =>
        obtain ⟨callsEq, allSaved⟩ := writing.of_ok rfl
        exact ⟨edition, template, pages, preparedBy, preparedBy.documents_paths, rfl,
          preparedBy.assets.nodup, callsEq, allSaved⟩
    | error cause =>
        obtain ⟨done, failed, writesEq, isPrefix, allSaved, failedSaved⟩ := writing.of_error rfl
        exact ⟨edition, template, pages, done, failed, preparedBy, writesEq, isPrefix,
          allSaved, failedSaved⟩

end Compilation

end WikiPress
