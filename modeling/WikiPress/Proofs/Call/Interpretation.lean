import WikiPress.Proofs.Call.Program

/-!
# The library as call trees

Every function of the library that is written for any loader and saver commutes
with interpretation: run on the loader and saver that ask, and then interpreted, it
is the function run on the interpreting loader and saver.  So the tree of
`Compilation.run` stands for its runs with all loaders and all savers.
-/

namespace WikiPress

open Files

variable {m : Type → Type} [Monad m] [LawfulMonad m] (loader : Loader m) (saver : Saver m)

namespace Include

theorem interpret_loadMissing (names : List String) (cache : Cache) :
    (loadMissing Program.loader names cache).interpret (Handler.of loader saver) =
      loadMissing loader names cache := by
  induction names generalizing cache with
  | nil => rfl
  | cons name names ih =>
      simp only [loadMissing]
      split
      · exact ih cache
      · rw [Program.interpret_bind, Program.interpret_load]
        apply bind_congr
        intro answer
        cases answer with
        | ok fragment => exact ih (cache.insert name fragment)
        | error error => rfl

theorem interpret_expandRounds (limit remaining : Nat) (cache : Cache) (text : String) :
    (expandRounds Program.loader limit remaining cache text).interpret
        (Handler.of loader saver) =
      expandRounds loader limit remaining cache text := by
  induction remaining generalizing cache text with
  | zero => rfl
  | succ remaining ih =>
      simp only [expandRounds]
      split
      · rfl
      · rw [Program.interpret_bind, interpret_loadMissing]
        apply bind_congr
        rintro ⟨answer, loaded⟩
        cases answer with
        | ok _ => exact ih loaded (substitute loaded text)
        | error error => rfl

theorem interpret_expand (limit : Nat) (cache : Cache) (text : String) :
    (expand Program.loader limit cache text).interpret (Handler.of loader saver) =
      expand loader limit cache text :=
  interpret_expandRounds loader saver limit limit cache text

end Include

theorem Page.interpret_render (includeLimit : Nat) (context : RenderContext) (page : Page) :
    (page.render Program.loader includeLimit context).interpret (Handler.of loader saver) =
      page.render loader includeLimit context := by
  simp only [Page.render]
  rw [Program.interpret_bind, Program.interpret_load]
  apply bind_congr
  intro loaded
  cases loaded with
  | error error => rfl
  | ok source =>
      simp only
      rw [Program.interpret_bind, Include.interpret_expand]
      apply bind_congr
      rintro ⟨expanded, fragments⟩
      cases expanded <;> rfl

namespace Compilation

theorem interpret_discoverPages (config : Config) :
    (discoverPages Program.loader config).interpret (Handler.of loader saver) =
      discoverPages loader config := by
  simp only [discoverPages]
  rw [Program.interpret_bind, Program.interpret_glob]
  apply bind_congr
  intro found
  cases found <;> rfl

theorem interpret_renderPages (includeLimit : Nat) (context : RenderContext)
    (pages : List Page) :
    (renderPages Program.loader includeLimit context pages).interpret
        (Handler.of loader saver) =
      renderPages loader includeLimit context pages := by
  induction pages generalizing context with
  | nil => rfl
  | cons page pages ih =>
      simp only [renderPages]
      rw [Program.interpret_bind, Page.interpret_render]
      apply bind_congr
      rintro ⟨answer, filled, context⟩
      cases answer with
      | error error => rfl
      | ok rendered =>
          simp only
          rw [Program.interpret_bind, ih]
          rfl

theorem interpret_loadFiles (loaded : List (Path × ByteArray)) (paths : List Path) :
    (loadFiles Program.loader loaded paths).interpret (Handler.of loader saver) =
      loadFiles loader loaded paths := by
  induction paths generalizing loaded with
  | nil => rfl
  | cons path paths ih =>
      simp only [loadFiles]
      split
      · exact ih loaded
      · rw [Program.interpret_bind, Program.interpret_loadBinary]
        apply bind_congr
        intro answer
        cases answer with
        | error error => rfl
        | ok content => exact ih (loaded ++ [(path, content)])

theorem interpret_loadMatches (loaded : List (Path × ByteArray)) (patterns : List String) :
    (loadMatches Program.loader loaded patterns).interpret (Handler.of loader saver) =
      loadMatches loader loaded patterns := by
  induction patterns generalizing loaded with
  | nil => rfl
  | cons pattern patterns ih =>
      simp only [loadMatches]
      rw [Program.interpret_bind, Program.interpret_glob]
      apply bind_congr
      intro found
      cases found with
      | error error => rfl
      | ok paths =>
          simp only
          rw [Program.interpret_bind, interpret_loadFiles]
          apply bind_congr
          intro answer
          cases answer with
          | error error => rfl
          | ok loaded => exact ih loaded

theorem interpret_prepare (config : Config) (generatedAt : Moment) :
    (prepare Program.loader config generatedAt).interpret (Handler.of loader saver) =
      prepare loader config generatedAt := by
  simp only [prepare]
  rw [Program.interpret_bind, Program.interpret_load]
  apply bind_congr
  intro loaded
  cases loaded with
  | error error => rfl
  | ok template =>
      simp only
      rw [Program.interpret_bind, interpret_discoverPages]
      apply bind_congr
      intro discovered
      cases discovered with
      | error error => rfl
      | ok pages =>
          simp only
          rw [Program.interpret_bind, interpret_renderPages]
          apply bind_congr
          intro rendered
          cases rendered with
          | error error => rfl
          | ok rendered =>
              simp only
              rw [Program.interpret_bind, interpret_loadMatches]
              apply bind_congr
              intro assets
              cases assets <;> rfl

theorem interpret_runAll (handler : Handler m) (actions : List (Program (Except SaveError Unit))) :
    (runAll actions).interpret handler = runAll (actions.map (Program.interpret handler)) := by
  induction actions with
  | nil => rfl
  | cons action actions ih =>
      simp only [runAll, List.map_cons]
      rw [Program.interpret_bind]
      apply bind_congr
      intro answer
      cases answer with
      | error error => rfl
      | ok _ => exact ih

theorem interpret_publish (edition : Edition) :
    (publish Program.saver edition).interpret (Handler.of loader saver) =
      publish saver edition := by
  have actions : (publication Program.saver edition).map
      (Program.interpret (Handler.of loader saver)) = publication saver edition := by
    simp [publication, Function.comp_def]
  rw [publish, interpret_runAll, actions, publish]

/-- The tree of a compilation, run by a loader and a saver, is the compilation with
that loader and that saver. -/
theorem interpret_run (config : Config) (generatedAt : Moment) :
    (run Program.loader Program.saver config generatedAt).interpret (Handler.of loader saver) =
      run loader saver config generatedAt := by
  simp only [run]
  rw [Program.interpret_bind, interpret_prepare]
  apply bind_congr
  intro prepared
  cases prepared with
  | error error => rfl
  | ok edition =>
      simp only
      rw [Program.interpret_bind, interpret_publish]
      apply bind_congr
      intro published
      cases published <;> rfl

end Compilation

end WikiPress
