import WikiPress.Compilation.Run

/-!
# Programs as trees of calls

The library reaches sources and output only through a loader and a saver, which
are records of actions in any monad.  Choosing the monad of call trees turns every
such function into data: a tree that names the next call and goes on with whatever
the answer is.

A tree can be run by any loader and saver, so what is proved about its paths holds
of all of them, failing, changing or malicious.  `Program.interpret` is that run,
`Program.Run` is the relation between a tree and one of its paths, and
`Program.value` is the run against answers that are fixed beforehand.
-/

namespace WikiPress

open Files

/-- A call of a loader or of a saver. -/
inductive Call where
  | load (path : Path)
  | loadBinary (path : Path)
  | glob (pattern : String)
  | save (path : Path) (text : String)
  | saveBinary (path : Path) (content : ByteArray)
  | recreate

namespace Call

/-- What a call is answered with. -/
def Answer : Call → Type
  | load _ => Except LoadError String
  | loadBinary _ => Except LoadError ByteArray
  | glob _ => Except LoadError (List Path)
  | save _ _ => Except SaveError Unit
  | saveBinary _ _ => Except SaveError Unit
  | recreate => Except SaveError Unit

/-- Whether a call goes to a loader. -/
def isRead : Call → Bool
  | load _ => true
  | loadBinary _ => true
  | glob _ => true
  | _ => false

end Call

/-- A call that has been made, with its answer. -/
structure Event where
  call : Call
  answer : call.Answer

/-- Answers to all calls, by actions. -/
abbrev Handler (m : Type → Type) :=
  (call : Call) → m call.Answer

/-- Answers to all calls, fixed beforehand. -/
abbrev Answers :=
  (call : Call) → call.Answer

/-- The calls of a loader and a saver. -/
def Handler.of {m : Type → Type} (loader : Loader m) (saver : Saver m) : Handler m
  | .load path => loader.load path
  | .loadBinary path => loader.loadBinary path
  | .glob pattern => loader.glob pattern
  | .save path text => saver.save path text
  | .saveBinary path content => saver.saveBinary path content
  | .recreate => saver.recreate

/-- A computation that is finished, or makes a call and goes on with its answer. -/
inductive Program (α : Type) where
  | done (value : α)
  | ask (call : Call) (next : call.Answer → Program α)

namespace Program

variable {α β : Type}

/-- Go on with a program behind the value of another. -/
protected def bind : Program α → (α → Program β) → Program β
  | done value, following => following value
  | ask call next, following => ask call fun answer => (next answer).bind following

instance : Monad Program where
  pure := done
  bind := Program.bind

@[simp]
theorem pure_eq_done (value : α) : (pure value : Program α) = done value :=
  rfl

@[simp]
theorem done_bind (value : α) (following : α → Program β) :
    done value >>= following = following value :=
  rfl

@[simp]
theorem ask_bind (call : Call) (next : call.Answer → Program α)
    (following : α → Program β) :
    ask call next >>= following = ask call fun answer => next answer >>= following :=
  rfl

/-- The loader that asks. -/
def loader : Loader Program where
  load path := ask (.load path) done
  loadBinary path := ask (.loadBinary path) done
  glob pattern := ask (.glob pattern) done

/-- The saver that asks. -/
def saver : Saver Program where
  save path text := ask (.save path text) done
  saveBinary path content := ask (.saveBinary path content) done
  recreate := ask .recreate done

/-! ## Interpretation -/

section Interpret

variable {m : Type → Type} [Monad m]

/-- Run a program, each call by its action. -/
def interpret (handler : Handler m) : Program α → m α
  | done value => pure value
  | ask call next => do
    let answer ← handler call
    interpret handler (next answer)

@[simp]
theorem interpret_done (handler : Handler m) (value : α) :
    interpret handler (done value) = pure value :=
  rfl

@[simp]
theorem interpret_ask (handler : Handler m) (call : Call)
    (next : call.Answer → Program α) :
    interpret handler (ask call next) =
      handler call >>= fun answer => interpret handler (next answer) :=
  rfl

/-- A run of two programs, one behind the other, is a run of the first and then
one of the second. -/
@[simp]
theorem interpret_bind [LawfulMonad m] (handler : Handler m) (program : Program α)
    (following : α → Program β) :
    interpret handler (program >>= following) =
      interpret handler program >>= fun value => interpret handler (following value) := by
  induction program with
  | done value => simp
  | ask call next ih =>
      rw [ask_bind, interpret_ask, interpret_ask, bind_assoc]
      exact congrArg (handler call >>= ·) (funext ih)

variable [LawfulMonad m] (loader : Loader m) (saver : Saver m)

@[simp]
theorem interpret_load (path : Path) :
    interpret (Handler.of loader saver) (Program.loader.load path) = loader.load path :=
  bind_pure (loader.load path)

@[simp]
theorem interpret_loadBinary (path : Path) :
    interpret (Handler.of loader saver) (Program.loader.loadBinary path) =
      loader.loadBinary path :=
  bind_pure (loader.loadBinary path)

@[simp]
theorem interpret_glob (pattern : String) :
    interpret (Handler.of loader saver) (Program.loader.glob pattern) = loader.glob pattern :=
  bind_pure (loader.glob pattern)

@[simp]
theorem interpret_save (path : Path) (text : String) :
    interpret (Handler.of loader saver) (Program.saver.save path text) = saver.save path text :=
  bind_pure (saver.save path text)

@[simp]
theorem interpret_saveBinary (path : Path) (content : ByteArray) :
    interpret (Handler.of loader saver) (Program.saver.saveBinary path content) =
      saver.saveBinary path content :=
  bind_pure (saver.saveBinary path content)

@[simp]
theorem interpret_recreate :
    interpret (Handler.of loader saver) Program.saver.recreate = saver.recreate :=
  bind_pure saver.recreate

end Interpret

/-! ## Paths -/

/-- A program makes the calls of a list, is given the answers in it, and ends with
a value. -/
inductive Run : Program α → List Event → α → Prop where
  | done (value : α) : Run (done value) [] value
  | ask {call : Call} {next : call.Answer → Program α} {answer : call.Answer}
      {trace : List Event} {value : α} (rest : Run (next answer) trace value) :
      Run (ask call next) (⟨call, answer⟩ :: trace) value

@[simp]
theorem run_done_iff {value result : α} {trace : List Event} :
    Run (done value) trace result ↔ trace = [] ∧ result = value := by
  constructor
  · rintro ⟨⟩
    exact ⟨rfl, rfl⟩
  · rintro ⟨rfl, rfl⟩
    exact .done result

@[simp]
theorem run_ask_iff {call : Call} {next : call.Answer → Program α} {trace : List Event}
    {result : α} :
    Run (ask call next) trace result ↔
      ∃ answer rest, trace = ⟨call, answer⟩ :: rest ∧ Run (next answer) rest result := by
  constructor
  · intro run
    cases run with
    | ask rest => exact ⟨_, _, rfl, rest⟩
  · rintro ⟨answer, rest, rfl, run⟩
    exact .ask run

/-- A path of two programs, one behind the other, is a path of the first and then
one of the second. -/
theorem run_bind_iff {program : Program α} {following : α → Program β}
    {trace : List Event} {result : β} :
    Run (program >>= following) trace result ↔
      ∃ first value second, trace = first ++ second ∧
        Run program first value ∧ Run (following value) second result := by
  induction program generalizing trace with
  | done value =>
      rw [done_bind]
      constructor
      · intro run
        exact ⟨[], value, trace, rfl, .done value, run⟩
      · rintro ⟨first, value, second, rfl, firstRun, secondRun⟩
        obtain ⟨rfl, rfl⟩ := run_done_iff.mp firstRun
        exact secondRun
  | ask call next ih =>
      rw [ask_bind, run_ask_iff]
      constructor
      · rintro ⟨answer, rest, rfl, run⟩
        obtain ⟨first, value, second, rfl, firstRun, secondRun⟩ := (ih answer).mp run
        exact ⟨⟨call, answer⟩ :: first, value, second, rfl, .ask firstRun, secondRun⟩
      · rintro ⟨first, value, second, rfl, firstRun, secondRun⟩
        obtain ⟨answer, rest, rfl, run⟩ := run_ask_iff.mp firstRun
        exact ⟨answer, rest ++ second, rfl,
          (ih answer).mpr ⟨rest, value, second, rfl, run, secondRun⟩⟩

/-- A path of a program behind a single call starts with that call. -/
theorem run_call_bind_iff {call : Call} {following : call.Answer → Program β}
    {trace : List Event} {result : β} :
    Run (ask call done >>= following) trace result ↔
      ∃ answer rest, trace = ⟨call, answer⟩ :: rest ∧ Run (following answer) rest result :=
  run_ask_iff

/-! ## Calls that may be made -/

/-- All calls of a program, whatever the answers, are allowed ones. -/
def Uses (allowed : Call → Prop) : Program α → Prop
  | done _ => True
  | ask call next => allowed call ∧ ∀ answer, Uses allowed (next answer)

theorem Uses.bind {allowed : Call → Prop} {program : Program α} {following : α → Program β}
    (first : Uses allowed program) (rest : ∀ value, Uses allowed (following value)) :
    Uses allowed (program >>= following) := by
  induction program with
  | done value => exact rest value
  | ask call next ih => exact ⟨first.1, fun answer => ih answer (first.2 answer)⟩

theorem Uses.mono {allowed permitted : Call → Prop} {program : Program α}
    (uses : Uses allowed program) (wider : ∀ call, allowed call → permitted call) :
    Uses permitted program := by
  induction program with
  | done value => trivial
  | ask call next ih => exact ⟨wider call uses.1, fun answer => ih answer (uses.2 answer)⟩

theorem Uses.of_run {allowed : Call → Prop} {program : Program α} {trace : List Event}
    {result : α} (uses : Uses allowed program) (run : Run program trace result) :
    ∀ event ∈ trace, allowed event.call := by
  induction run with
  | done value => simp
  | ask rest ih =>
      intro event member
      rcases List.mem_cons.mp member with rfl | later
      · exact uses.1
      · exact ih (uses.2 _) event later

/-! ## Fixed answers -/

/-- The value of a program whose calls have fixed answers. -/
def value (answers : Answers) : Program α → α
  | done value => value
  | ask call next => value answers (next (answers call))

/-- The calls that a program makes when they have fixed answers. -/
def calls (answers : Answers) : Program α → List Call
  | done _ => []
  | ask call next => call :: calls answers (next (answers call))

@[simp]
theorem calls_done (answers : Answers) (value : α) : calls answers (done value) = [] :=
  rfl

@[simp]
theorem value_bind (answers : Answers) (program : Program α) (following : α → Program β) :
    value answers (program >>= following) =
      value answers (following (value answers program)) := by
  induction program with
  | done _ => rfl
  | ask call next ih => exact ih (answers call)

@[simp]
theorem calls_bind (answers : Answers) (program : Program α) (following : α → Program β) :
    calls answers (program >>= following) =
      calls answers program ++ calls answers (following (value answers program)) := by
  induction program with
  | done _ => rfl
  | ask call next ih => exact congrArg (call :: ·) (ih (answers call))

/-- A program with fixed answers makes its calls and ends with its value. -/
theorem run_of_answers (answers : Answers) (program : Program α) :
    Run program ((calls answers program).map fun call => ⟨call, answers call⟩)
      (value answers program) := by
  induction program with
  | done value => exact .done value
  | ask call next ih => exact .ask (ih (answers call))

/-- A path whose answers are the fixed ones ends with the value that these lead to. -/
theorem Run.value_eq {answers : Answers} {program : Program α} {trace : List Event}
    {result : α} (run : Run program trace result)
    (given : ∀ event ∈ trace, event.answer = answers event.call) :
    value answers program = result := by
  induction run with
  | done value => rfl
  | ask rest ih =>
      obtain ⟨first, later⟩ := List.forall_mem_cons.mp given
      simp only at first
      rw [value, ← first]
      exact ih later

theorem Uses.of_mem_calls {allowed : Call → Prop} {answers : Answers} {program : Program α}
    (uses : Uses allowed program) : ∀ call ∈ calls answers program, allowed call := by
  induction program with
  | done value => simp
  | ask first next ih =>
      intro call member
      rcases List.mem_cons.mp member with rfl | later
      · exact uses.1
      · exact ih _ (uses.2 _) call later

/-- Answers that agree on the calls that are made lead to the same calls and the
same value. -/
theorem value_and_calls_congr {answers other : Answers} {program : Program α}
    (agree : ∀ call ∈ calls answers program, other call = answers call) :
    value other program = value answers program ∧
      calls other program = calls answers program := by
  induction program with
  | done _ => exact ⟨rfl, rfl⟩
  | ask call next ih =>
      have first : other call = answers call := agree call List.mem_cons_self
      obtain ⟨values, rest⟩ := ih (answers call) fun later member =>
        agree later (List.mem_cons_of_mem call member)
      constructor
      · simp only [value, first, values]
      · simp only [calls, first, rest]

end Program

end WikiPress
