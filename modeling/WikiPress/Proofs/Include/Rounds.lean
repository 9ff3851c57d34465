import WikiPress.Proofs.Call.Interpretation
import WikiPress.Proofs.Include.Search

/-!
# The rounds of an expansion

An expansion is told here by the requests that it makes.  A round asks for the fragments
that its text invokes and the cache lacks, in the order in which the names first appear,
and stops at the first failure; if there is none, it puts the fragments into the cache and
replaces all invocations.  An expansion is a number of such rounds, and then ends in one
of three ways: no invocation is left, the budget is spent, or a load fails.

`run_expandRounds_iff` says that this is what the program does, whatever it is answered.
-/

namespace WikiPress.Include

/-! ## Requests -/

/-- A fragment that was asked for by its name, with the answer. -/
structure Request where
  name : String
  answer : Except LoadError String

namespace Request

/-- The call of the loader that a request is. -/
def event (request : Request) : Event :=
  ⟨.load (fragmentPath request.name), request.answer⟩

/-- What a request leaves in a cache, if it succeeds. -/
def entry? (request : Request) : Option (String × String) :=
  match request.answer with
  | .ok fragment => some (request.name, fragment)
  | .error _ => none

end Request

/-- Fragments are asked for by their names, one after the other, up to the first failure. -/
inductive Asks : List String → List Request → Except LoadError Unit → Prop
  | all : Asks [] [] (.ok ())
  | loaded {names : List String} {requests : List Request} {answer : Except LoadError Unit}
      (name fragment : String) (rest : Asks names requests answer) :
      Asks (name :: names) (⟨name, .ok fragment⟩ :: requests) answer
  | failed (name : String) (names : List String) (error : LoadError) :
      Asks (name :: names) [⟨name, .error error⟩] (.error error)

/-- The names that a text invokes and that a cache lacks, in order of first appearance. -/
def missingNames (cache : Cache) (text : String) : List String :=
  (invokedNames text).filter fun name => !cache.contains name

/-- A cache with the fragments that requests were answered with. -/
def Cache.extend (cache : Cache) (requests : List Request) : Cache :=
  ⟨cache.entries ++ requests.filterMap Request.entry?⟩

@[simp]
theorem Cache.extend_nil (cache : Cache) : cache.extend [] = cache := by
  simp [extend]

@[simp]
theorem Cache.extend_failed (cache : Cache) (name : String) (error : LoadError) :
    cache.extend [⟨name, .error error⟩] = cache := by
  have noEntry : [Request.mk name (.error error)].filterMap Request.entry? = [] := rfl
  rw [extend, noEntry, List.append_nil]

theorem Cache.extend_append (cache : Cache) (first second : List Request) :
    cache.extend (first ++ second) = (cache.extend first).extend second := by
  simp [extend]

/-- A fragment that is missing is put behind all others. -/
theorem Cache.insert_of_not_contains {cache : Cache} {name : String}
    (missing : cache.contains name = false) (fragment : String) :
    cache.insert name fragment = cache.extend [⟨name, .ok fragment⟩] := by
  unfold insert
  rw [if_neg (by simpa using missing)]
  rfl

@[simp]
theorem Cache.contains_insert (cache : Cache) (name fragment other : String) :
    (cache.insert name fragment).contains other =
      (decide (other = name) || cache.contains other) := by
  unfold contains
  rw [get?_insert]
  by_cases same : other = name <;> simp [same]

/-- What is missing behind a success is what was missing before it. -/
theorem Cache.missing_insert {name : String} {names : List String} (notLater : name ∉ names)
    (cache : Cache) (fragment : String) :
    names.filter (fun other => !(cache.insert name fragment).contains other) =
      names.filter fun other => !cache.contains other := by
  apply List.filter_congr
  intro other member
  have different : other ≠ name := fun same => notLater (same ▸ member)
  rw [contains_insert, decide_eq_false different, Bool.false_or]

/-- A success that is put into a cache at once is one of the requests that extend it. -/
theorem Cache.extend_insert {cache : Cache} {name : String}
    (missing : cache.contains name = false) (fragment : String) (requests : List Request) :
    (cache.insert name fragment).extend requests =
      cache.extend (⟨name, .ok fragment⟩ :: requests) := by
  rw [insert_of_not_contains missing, ← extend_append]
  rfl

/-- Names of which none occurs twice are asked for exactly if they are missing. -/
theorem run_loadMissing_iff {names : List String} (nodup : names.Nodup) {cache final : Cache}
    {trace : List Event} {answer : Except LoadError Unit} :
    (loadMissing Program.loader names cache).Run trace (answer, final) ↔
      ∃ requests, Asks (names.filter fun name => !cache.contains name) requests answer ∧
        trace = requests.map Request.event ∧ final = cache.extend requests := by
  induction names generalizing cache trace with
  | nil =>
      change Program.Run (.done (.ok (), cache)) trace (answer, final) ↔ _
      rw [Program.run_done_iff, Prod.mk.injEq]
      constructor
      · rintro ⟨rfl, rfl, rfl⟩
        exact ⟨[], .all, rfl, (Cache.extend_nil final).symm⟩
      · rintro ⟨requests, asks, rfl, rfl⟩
        cases asks
        exact ⟨rfl, rfl, Cache.extend_nil cache⟩
  | cons name names ih =>
      obtain ⟨notLater, nodupLater⟩ := List.nodup_cons.mp nodup
      unfold loadMissing
      by_cases present : cache.contains name = true
      · rw [if_pos present, List.filter_cons_of_neg (by simpa using present)]
        exact ih nodupLater
      · have missing := Bool.eq_false_iff.mpr present
        have laterMissing := Cache.missing_insert notLater cache
        rw [if_neg present, List.filter_cons_of_pos (by simpa using missing)]
        refine Program.run_call_bind_iff.trans ?_
        constructor
        · rintro ⟨given, rest, rfl, run⟩
          cases given with
          | error error =>
              obtain ⟨rfl, same⟩ := Program.run_done_iff.mp run
              cases same
              exact ⟨[⟨name, .error error⟩], .failed name _ error, rfl,
                (Cache.extend_failed _ _ _).symm⟩
          | ok fragment =>
              obtain ⟨requests, asks, rfl, rfl⟩ := (ih nodupLater).mp run
              rw [laterMissing] at asks
              exact ⟨⟨name, .ok fragment⟩ :: requests, .loaded name fragment asks, rfl,
                Cache.extend_insert missing fragment requests⟩
        · rintro ⟨requests, asks, rfl, rfl⟩
          cases asks with
          | failed name names error =>
              refine ⟨.error error, [], rfl, Program.run_done_iff.mpr ⟨rfl, ?_⟩⟩
              rw [Cache.extend_failed]
          | loaded name fragment rest =>
              refine ⟨.ok fragment, _, rfl, (ih nodupLater).mpr ⟨_, ?_, rfl, ?_⟩⟩
              · rw [laterMissing]
                exact rest
              · exact (Cache.extend_insert missing fragment _).symm

/-- The names that a text invokes are distinct. -/
theorem nodup_distinct (names : List String) : (distinct names).Nodup := by
  induction names with
  | nil => exact List.nodup_nil
  | cons name names ih =>
      rw [distinct, List.nodup_cons]
      exact ⟨by simp, ih.filter _⟩

/-! ## Rounds -/

/-- Rounds that follow each other, each with its requests.  In each the text holds an
invocation, all fragments that are missing are given, and the invocations are replaced. -/
inductive Rounds : Cache → String → List (List Request) → Cache → String → Prop
  | none (cache : Cache) (text : String) : Rounds cache text [] cache text
  | next {cache reached : Cache} {text result : String} {requests : List Request}
      {log : List (List Request)} (pending : HoldsInvocation text)
      (asks : Asks (missingNames cache text) requests (.ok ()))
      (rest : Rounds (cache.extend requests) (substitute (cache.extend requests) text) log
        reached result) :
      Rounds cache text (requests :: log) reached result

/-- How an expansion ends with a number of rounds left of a limit: with its requests, its
answer and its cache. -/
inductive Ends (limit : Nat) : Nat → Cache → String → List Request →
    Except IncludeError String → Cache → Prop
  | finished {left : Nat} {cache : Cache} {text : String} (done : ¬ HoldsInvocation text) :
      Ends limit left cache text [] (.ok text) cache
  | spent {cache : Cache} {text : String} (pending : HoldsInvocation text) :
      Ends limit 0 cache text [] (.error (.overflow limit)) cache
  | failed {left : Nat} {cache : Cache} {text : String} {requests : List Request}
      {error : LoadError} (pending : HoldsInvocation text)
      (asks : Asks (missingNames cache text) requests (.error error)) :
      Ends limit (left + 1) cache text requests (.error (.load error)) (cache.extend requests)

/-- An expansion with a budget of rounds, which is the limit when it starts: the requests
of its rounds and those behind the last one that was completed, its answer and its cache. -/
inductive Expansion (limit budget : Nat) (cache : Cache) (text : String) :
    List (List Request) → Except IncludeError String → Cache → Prop
  | intro {left : Nat} {log : List (List Request)} {last : List Request} {reached final : Cache}
      {result : String} {answer : Except IncludeError String} (count : log.length + left = budget)
      (rounds : Rounds cache text log reached result)
      (ends : Ends limit left reached result last answer final) :
      Expansion limit budget cache text (log ++ [last]) answer final

variable {cache final : Cache} {text : String} {answer : Except IncludeError String}

theorem isEmpty_invokedNames_iff : (invokedNames text).isEmpty = true ↔ ¬ HoldsInvocation text := by
  rw [holdsInvocation_iff, ne_eq, not_not, List.isEmpty_iff]

/-- Where nothing is invoked, nothing is asked for. -/
theorem expandRounds_of_not_holdsInvocation {m : Type → Type} [Monad m] (loader : Loader m)
    (limit budget : Nat) (cache : Cache) (done : ¬ HoldsInvocation text) :
    expandRounds loader limit budget cache text = pure (.ok text, cache) := by
  have isEmpty := isEmpty_invokedNames_iff.mpr done
  cases budget <;> simp [expandRounds, isEmpty]

/-- Without an invocation there is no round. -/
theorem expansion_iff_of_not_holdsInvocation {limit budget : Nat} {log : List (List Request)}
    (done : ¬ HoldsInvocation text) :
    Expansion limit budget cache text log answer final ↔
      log = [[]] ∧ answer = .ok text ∧ final = cache := by
  constructor
  · rintro ⟨count, rounds, ends⟩
    cases rounds with
    | next pending _ _ => exact absurd pending done
    | none =>
        cases ends with
        | finished _ => exact ⟨rfl, rfl, rfl⟩
        | spent pending => exact absurd pending done
        | failed pending _ => exact absurd pending done
  · rintro ⟨rfl, rfl, rfl⟩
    exact .intro (Nat.zero_add budget) (.none final text) (.finished done)

/-- With an invocation and without a budget there is no round either. -/
theorem expansion_zero_iff {limit : Nat} {log : List (List Request)}
    (pending : HoldsInvocation text) :
    Expansion limit 0 cache text log answer final ↔
      log = [[]] ∧ answer = .error (.overflow limit) ∧ final = cache := by
  constructor
  · rintro ⟨count, rounds, ends⟩
    cases rounds with
    | next _ _ _ =>
        rw [List.length_cons] at count
        omega
    | none =>
        cases ends with
        | finished done => exact absurd pending done
        | spent _ => exact ⟨rfl, rfl, rfl⟩
        | failed _ _ => cases count
  · rintro ⟨rfl, rfl, rfl⟩
    exact .intro rfl (.none final text) (.spent pending)

/-- With both, there is a round that fails, or one behind which the expansion goes on. -/
theorem expansion_succ_iff {limit budget : Nat} {log : List (List Request)}
    (pending : HoldsInvocation text) :
    Expansion limit (budget + 1) cache text log answer final ↔
      (∃ requests error, Asks (missingNames cache text) requests (.error error) ∧
        log = [requests] ∧ answer = .error (.load error) ∧ final = cache.extend requests) ∨
      ∃ requests rest, Asks (missingNames cache text) requests (.ok ()) ∧
        log = requests :: rest ∧
        Expansion limit budget (cache.extend requests)
          (substitute (cache.extend requests) text) rest answer final := by
  constructor
  · rintro ⟨count, rounds, ends⟩
    cases rounds with
    | none =>
        cases ends with
        | finished done => exact absurd pending done
        | spent _ => cases count
        | failed _ asks => exact .inl ⟨_, _, asks, rfl, rfl, rfl⟩
    | next _ asks rest =>
        refine .inr ⟨_, _, asks, rfl, .intro ?_ rest ends⟩
        rw [List.length_cons] at count
        omega
  · rintro (⟨requests, error, asks, rfl, rfl, rfl⟩ | ⟨requests, rest, asks, rfl, expansion⟩)
    · exact .intro (Nat.zero_add _) (.none cache text) (.failed pending asks)
    · obtain ⟨count, rounds, ends⟩ := expansion
      exact .intro (by rw [List.length_cons]; omega) (.next pending asks rounds) ends

/-- Where the program makes no call, its expansion has no requests. -/
theorem run_done_iff_expansion {limit budget : Nat} {trace : List Event}
    {program : Program (Except IncludeError String × Cache)}
    {returned : Except IncludeError String} (returns : program = .done (returned, cache))
    (expansionIff : ∀ log, Expansion limit budget cache text log answer final ↔
      log = [[]] ∧ answer = returned ∧ final = cache) :
    program.Run trace (answer, final) ↔
      ∃ log, Expansion limit budget cache text log answer final ∧
        trace = log.flatten.map Request.event := by
  rw [returns, Program.run_done_iff, Prod.mk.injEq]
  constructor
  · rintro ⟨rfl, same⟩
    exact ⟨[[]], (expansionIff _).mpr ⟨rfl, same⟩, rfl⟩
  · rintro ⟨log, expansion, rfl⟩
    obtain ⟨rfl, same⟩ := (expansionIff log).mp expansion
    exact ⟨rfl, same⟩

/-- What the program does, whatever it is answered, is an expansion. -/
theorem run_expandRounds_iff {limit budget : Nat} {trace : List Event} :
    (expandRounds Program.loader limit budget cache text).Run trace (answer, final) ↔
      ∃ log, Expansion limit budget cache text log answer final ∧
        trace = log.flatten.map Request.event := by
  induction budget generalizing cache text trace with
  | zero =>
      by_cases pending : HoldsInvocation text
      · have notEmpty := mt isEmpty_invokedNames_iff.mp (not_not.mpr pending)
        exact run_done_iff_expansion (by simp [expandRounds, notEmpty])
          fun _ => expansion_zero_iff pending
      · exact run_done_iff_expansion (expandRounds_of_not_holdsInvocation _ _ _ _ pending)
          fun _ => expansion_iff_of_not_holdsInvocation pending
  | succ budget ih =>
      by_cases pending : HoldsInvocation text
      · have notEmpty := mt isEmpty_invokedNames_iff.mp (not_not.mpr pending)
        unfold expandRounds
        simp only [if_neg notEmpty, Program.run_bind_iff, expansion_succ_iff pending]
        have loads {trace : List Event} {loaded : Cache} {given : Except LoadError Unit} :
            (loadMissing Program.loader (invokedNames text) cache).Run trace (given, loaded) ↔
              ∃ requests, Asks (missingNames cache text) requests given ∧
                trace = requests.map Request.event ∧ loaded = cache.extend requests :=
          run_loadMissing_iff (nodup_distinct _)
        constructor
        · rintro ⟨first, ⟨given, loaded⟩, second, rfl, firstRun, secondRun⟩
          obtain ⟨requests, asks, rfl, rfl⟩ := loads.mp firstRun
          cases given with
          | error error =>
              obtain ⟨rfl, same⟩ := Program.run_done_iff.mp secondRun
              cases same
              exact ⟨[requests], .inl ⟨requests, error, asks, rfl, rfl, rfl⟩, by simp⟩
          | ok _ =>
              obtain ⟨log, expansion, rfl⟩ := ih.mp secondRun
              exact ⟨requests :: log, .inr ⟨requests, log, asks, rfl, expansion⟩, by simp⟩
        · rintro ⟨log, failed | completed, rfl⟩
          · obtain ⟨requests, error, asks, rfl, rfl, rfl⟩ := failed
            exact ⟨requests.map Request.event, (.error error, cache.extend requests), [],
              by simp, loads.mpr ⟨requests, asks, rfl, rfl⟩, .done _⟩
          · obtain ⟨requests, rest, asks, rfl, expansion⟩ := completed
            exact ⟨requests.map Request.event, (.ok (), cache.extend requests), _,
              by simp, loads.mpr ⟨requests, asks, rfl, rfl⟩, ih.mpr ⟨rest, expansion, rfl⟩⟩
      · exact run_done_iff_expansion (expandRounds_of_not_holdsInvocation _ _ _ _ pending)
          fun _ => expansion_iff_of_not_holdsInvocation pending

/-- An expansion that succeeds has replaced all invocations. -/
theorem not_holdsInvocation_of_run {limit : Nat} {trace : List Event} {expanded : String}
    (run : (expand Program.loader limit cache text).Run trace (.ok expanded, final)) :
    ¬ HoldsInvocation expanded := by
  obtain ⟨log, ⟨count, rounds, ends⟩, -⟩ := run_expandRounds_iff.mp run
  cases ends with
  | finished done => exact done

end WikiPress.Include
