import WikiPress.Proofs.Call.Interpretation

/-!
# Recorded and steady calls

A loader and a saver whose state is of any type are run here in two ways.  With
recording, every call is written down with its answer, and what is written down is a
path of the call tree.  With a steady loader, whose answers are those of a loader
without state, a program has the value that it has with that one.
-/

namespace WikiPress

open Files

/-! ## Recording -/

section Recorded

variable {m : Type → Type} [Monad m]

/-- Act, and write down the call with its answer. -/
def Event.record (call : Call) (action : m call.Answer) :
    StateT (List Event) m call.Answer := do
  let answer ← action
  modify (· ++ [⟨call, answer⟩])
  return answer

/-- A loader whose calls are written down. -/
def Loader.recorded (loader : Loader m) : Loader (StateT (List Event) m) where
  load path := Event.record (.load path) (loader.load path)
  loadBinary path := Event.record (.loadBinary path) (loader.loadBinary path)
  glob pattern := Event.record (.glob pattern) (loader.glob pattern)

/-- A saver whose calls are written down. -/
def Saver.recorded (saver : Saver m) : Saver (StateT (List Event) m) where
  save path text := Event.record (.save path text) (saver.save path text)
  saveBinary path content := Event.record (.saveBinary path content)
    (saver.saveBinary path content)
  recreate := Event.record .recreate saver.recreate

/-- A handler whose calls are written down. -/
def Handler.recorded (handler : Handler m) : Handler (StateT (List Event) m) :=
  fun call => Event.record call (handler call)

@[simp]
theorem Handler.of_recorded (loader : Loader m) (saver : Saver m) :
    Handler.of loader.recorded saver.recorded = (Handler.of loader saver).recorded := by
  funext call
  cases call <;> rfl

end Recorded

variable {α β σ : Type}

/-- Recording changes neither the value of a program nor the state behind it, and
adds a path of the program to what was written down before. -/
theorem Program.interpret_recorded (handler : Handler (StateM σ)) (program : Program α)
    (earlier : List Event) (state : σ) :
    ∃ trace, Run program trace ((interpret handler program).run state).1 ∧
      ((interpret handler.recorded program).run earlier).run state =
        ((((interpret handler program).run state).1, earlier ++ trace),
          ((interpret handler program).run state).2) := by
  induction program generalizing earlier state with
  | done value =>
      refine ⟨[], .done value, ?_⟩
      rw [List.append_nil]
      rfl
  | ask call next ih =>
      let answer := ((handler call).run state).1
      obtain ⟨trace, run, recorded⟩ := ih answer (earlier ++ [⟨call, answer⟩])
        ((handler call).run state).2
      refine ⟨⟨call, answer⟩ :: trace, .ask run, ?_⟩
      rw [← List.singleton_append, ← List.append_assoc]
      exact recorded

/-! ## Steady answers -/

/-- Wherever an invariant holds, an action gives a value and keeps the invariant. -/
def Yields (invariant : σ → Prop) (action : StateM σ α) (value : α) : Prop :=
  ∀ state, invariant state →
    (action.run state).1 = value ∧ invariant (action.run state).2

theorem Yields.pure (invariant : σ → Prop) (value : α) :
    Yields invariant (pure value : StateM σ α) value :=
  fun _ holds => ⟨rfl, holds⟩

theorem Yields.bind {invariant : σ → Prop} {action : StateM σ α} {value : α}
    {following : α → StateM σ β} {result : β} (first : Yields invariant action value)
    (rest : Yields invariant (following value) result) :
    Yields invariant (action >>= following) result := by
  intro state holds
  obtain ⟨valueEq, kept⟩ := first state holds
  rw [StateT.run_bind]
  change ((following (action.run state).1).run (action.run state).2).1 = result ∧
    invariant ((following (action.run state).1).run (action.run state).2).2
  rw [valueEq]
  exact rest _ kept

/-- The answers of a loader and a saver that have no state. -/
def Answers.of (loader : Loader Id) (saver : Saver Id) : Answers :=
  Handler.of loader saver

/-- As long as all calls have fixed answers, a program has its value with these. -/
theorem Program.interpret_yields {invariant : σ → Prop} {handler : Handler (StateM σ)}
    {answers : Answers} (steady : ∀ call, Yields invariant (handler call) (answers call))
    (program : Program α) :
    Yields invariant (program.interpret handler) (program.value answers) := by
  induction program with
  | done value => exact Yields.pure invariant value
  | ask call next ih => exact (steady call).bind (ih (answers call))

theorem Program.interpret_id (loader : Loader Id) (saver : Saver Id) (program : Program α) :
    (program.interpret (Handler.of loader saver) : Id α).run =
      program.value (Answers.of loader saver) := by
  induction program with
  | done value => rfl
  | ask call next ih => exact ih _

/-- A saver that answers all calls and does nothing. -/
def Saver.idle {m : Type → Type} [Monad m] : Saver m where
  save _ _ := return .ok ()
  saveBinary _ _ := return .ok ()
  recreate := return .ok ()

namespace Loader

/-- Wherever an invariant holds, a loader answers as one that has no state, and it
keeps the invariant. -/
structure Steady (loader : Loader (StateM σ)) (invariant : σ → Prop) (answers : Loader Id) :
    Prop where
  load : ∀ path, Yields invariant (loader.load path) (answers.load path)
  loadBinary : ∀ path, Yields invariant (loader.loadBinary path) (answers.loadBinary path)
  glob : ∀ pattern, Yields invariant (loader.glob pattern) (answers.glob pattern)

variable {loader : Loader (StateM σ)} {invariant : σ → Prop} {answers : Loader Id}

theorem Steady.handler (steady : loader.Steady invariant answers) (call : Call) :
    Yields invariant (Handler.of loader Saver.idle call)
      (Answers.of answers Saver.idle call) := by
  cases call with
  | load path => exact steady.load path
  | loadBinary path => exact steady.loadBinary path
  | glob pattern => exact steady.glob pattern
  | save path text => exact Yields.pure invariant (Except.ok ())
  | saveBinary path content => exact Yields.pure invariant (Except.ok ())
  | recreate => exact Yields.pure invariant (Except.ok ())

/-- A page is rendered with a steady loader as with the loader that has no state. -/
theorem Steady.render (steady : loader.Steady invariant answers) (includeLimit : Nat)
    (context : RenderContext) (page : Page) :
    Yields invariant (page.render loader includeLimit context)
      (page.render answers includeLimit context).run := by
  have yields := Program.interpret_yields steady.handler
    (page.render Program.loader includeLimit context)
  rw [Page.interpret_render, ← Program.interpret_id, Page.interpret_render] at yields
  exact yields

end Loader

end WikiPress
