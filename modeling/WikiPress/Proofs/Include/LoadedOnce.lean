import Mathlib.Data.List.Nodup
import WikiPress.Proofs.Call.Recording
import WikiPress.Proofs.Include.Rounds

/-!
# Every fragment is loaded once

Expansions that share a cache add to it what their requests were answered with, and
nothing else: entries stay as they are, also if an expansion fails between two requests,
and a later one goes on from what was loaded before.  Since only missing fragments are
asked for, no fragment is given twice.
-/

namespace WikiPress.Include

/-! ## Expansions that share a cache -/

section Calls

variable {m : Type → Type} [Monad m]

/-- Expand texts, each within a limit of its own, one after the other with one cache; a
failure stops nothing. -/
def expandEach (loader : Loader m) :
    Cache → List (Nat × String) → m (List (Except IncludeError String) × Cache)
  | cache, [] => return ([], cache)
  | cache, (limit, text) :: calls => do
    let (answer, cache) ← expand loader limit cache text
    let (answers, cache) ← expandEach loader cache calls
    return (answer :: answers, cache)

theorem interpret_expandEach [LawfulMonad m] (loader : Loader m) (saver : Saver m) (cache : Cache)
    (calls : List (Nat × String)) :
    (expandEach Program.loader cache calls).interpret (Handler.of loader saver) =
      expandEach loader cache calls := by
  induction calls generalizing cache with
  | nil => rfl
  | cons call calls ih =>
      obtain ⟨limit, text⟩ := call
      simp only [expandEach]
      rw [Program.interpret_bind, interpret_expand]
      apply bind_congr
      rintro ⟨answer, cache⟩
      simp only
      rw [Program.interpret_bind, ih]
      rfl

end Calls

/-- Expansions each of which starts with the cache that the one before has left: their
requests, their answers and the last cache. -/
inductive Expansions : Cache → List (Nat × String) → List (List (List Request)) →
    List (Except IncludeError String) → Cache → Prop
  | nil (cache : Cache) : Expansions cache [] [] [] cache
  | cons {cache left final : Cache} {limit : Nat} {text : String}
      {calls : List (Nat × String)} {log : List (List Request)}
      {logs : List (List (List Request))} {answer : Except IncludeError String}
      {answers : List (Except IncludeError String)}
      (first : Expansion limit limit cache text log answer left)
      (rest : Expansions left calls logs answers final) :
      Expansions cache ((limit, text) :: calls) (log :: logs) (answer :: answers) final

theorem expansions_of_run {cache final : Cache} {calls : List (Nat × String)}
    {trace : List Event} {answers : List (Except IncludeError String)}
    (run : (expandEach Program.loader cache calls).Run trace (answers, final)) :
    ∃ logs, Expansions cache calls logs answers final ∧
      trace = logs.flatten.flatten.map Request.event := by
  induction calls generalizing cache trace answers with
  | nil =>
      obtain ⟨rfl, same⟩ := Program.run_done_iff.mp run
      cases same
      exact ⟨[], .nil _, rfl⟩
  | cons call calls ih =>
      obtain ⟨limit, text⟩ := call
      simp only [expandEach] at run
      obtain ⟨first, ⟨answer, left⟩, second, rfl, firstRun, secondRun⟩ :=
        Program.run_bind_iff.mp run
      obtain ⟨second, ⟨others, last⟩, none, rfl, restRun, lastRun⟩ :=
        Program.run_bind_iff.mp secondRun
      obtain ⟨rfl, same⟩ := Program.run_done_iff.mp lastRun
      cases same
      obtain ⟨log, expansion, rfl⟩ := run_expandRounds_iff.mp firstRun
      obtain ⟨logs, expansions, rfl⟩ := ih restRun
      exact ⟨log :: logs, .cons expansion expansions, by simp⟩

/-! ## What requests add to a cache -/

/-- The path that a request loads, if it succeeds. -/
def Request.loadedPath? (request : Request) : Option Files.Path :=
  request.entry?.map fun entry => fragmentPath entry.1

/-- The names whose fragments requests were answered with. -/
def loadedNames (requests : List Request) : List String :=
  (requests.filterMap Request.entry?).map Prod.fst

/-- Requests lead from a cache to another one, and give only what was missing, each
fragment once. -/
structure Adds (cache : Cache) (requests : List Request) (final : Cache) : Prop where
  final_eq : final = cache.extend requests
  nodup : (loadedNames requests).Nodup
  missing : ∀ name ∈ loadedNames requests, cache.contains name = false

@[simp]
theorem loadedNames_append (first second : List Request) :
    loadedNames (first ++ second) = loadedNames first ++ loadedNames second := by
  unfold loadedNames
  rw [List.filterMap_append, List.map_append]

/-- A cache has fragments under the names of its entries. -/
theorem Cache.contains_iff_mem {cache : Cache} {name : String} :
    cache.contains name = true ↔ name ∈ cache.entries.map Prod.fst := by
  unfold contains get?
  rw [List.lookup_isSome_iff, List.mem_map]
  simp only [beq_iff_eq, @eq_comm _ name]

@[simp]
theorem Cache.contains_extend_iff {cache : Cache} {requests : List Request} {name : String} :
    (cache.extend requests).contains name = true ↔
      cache.contains name = true ∨ name ∈ loadedNames requests := by
  rw [contains_iff_mem, contains_iff_mem, extend, List.map_append, List.mem_append]
  rfl

/-- A fragment that is in a cache stays the one under its name. -/
theorem Cache.get?_extend_of_eq_some {cache : Cache} {name fragment : String}
    (found : cache.get? name = some fragment) (requests : List Request) :
    (cache.extend requests).get? name = some fragment := by
  unfold get? at found ⊢
  rw [extend, List.lookup_append, found]
  rfl

theorem Cache.size_extend (cache : Cache) (requests : List Request) :
    (cache.extend requests).size = cache.size + (loadedNames requests).length := by
  unfold size loadedNames
  rw [extend, List.length_append, List.length_map]

namespace Adds

variable {cache middle final : Cache} {requests more : List Request}

theorem nil (cache : Cache) : Adds cache [] cache :=
  ⟨(Cache.extend_nil cache).symm, List.nodup_nil, nofun⟩

/-- What is given later was missing behind what was given before. -/
theorem append (first : Adds cache requests middle) (second : Adds middle more final) :
    Adds cache (requests ++ more) final := by
  have missing {name : String} (later : name ∈ loadedNames more) :
      ¬ (cache.contains name = true ∨ name ∈ loadedNames requests) := by
    rw [← Cache.contains_extend_iff, ← first.final_eq]
    exact Bool.eq_false_iff.mp (second.missing name later)
  constructor
  · rw [Cache.extend_append, ← first.final_eq, second.final_eq]
  · rw [loadedNames_append, List.nodup_append]
    refine ⟨first.nodup, second.nodup, ?_⟩
    rintro name before _ later rfl
    exact missing later (.inr before)
  · intro name member
    rw [loadedNames_append, List.mem_append] at member
    rcases member with before | later
    · exact first.missing name before
    · exact Bool.eq_false_iff.mpr fun present => missing later (.inl present)

end Adds

/-- The fragments that are given are among those that are asked for, in their order. -/
theorem Asks.loadedNames_sublist {names : List String} {requests : List Request}
    {answer : Except LoadError Unit} (asks : Asks names requests answer) :
    (loadedNames requests).Sublist names := by
  induction asks with
  | all => exact .slnil
  | loaded name fragment rest ih => exact ih.cons_cons name
  | failed name names error => exact List.nil_sublist _

/-- Asking for what is missing adds it. -/
theorem Asks.adds {cache : Cache} {text : String} {requests : List Request}
    {answer : Except LoadError Unit} (asks : Asks (missingNames cache text) requests answer) :
    Adds cache requests (cache.extend requests) := by
  have sublist := asks.loadedNames_sublist
  refine ⟨rfl, ((nodup_distinct _).filter _).sublist sublist, ?_⟩
  intro name member
  simpa using (List.mem_filter.mp (sublist.subset member)).2

theorem Rounds.adds {cache reached : Cache} {text result : String} {log : List (List Request)}
    (rounds : Rounds cache text log reached result) : Adds cache log.flatten reached := by
  induction rounds with
  | none cache text => exact .nil cache
  | next pending asks rest ih =>
      rw [List.flatten_cons]
      exact asks.adds.append ih

/-- An expansion only adds to its cache, however it ends. -/
theorem Expansion.adds {limit budget : Nat} {cache final : Cache} {text : String}
    {log : List (List Request)} {answer : Except IncludeError String}
    (expansion : Expansion limit budget cache text log answer final) :
    Adds cache log.flatten final := by
  obtain ⟨count, rounds, ends⟩ := expansion
  rw [List.flatten_append, List.flatten_singleton]
  apply rounds.adds.append
  cases ends with
  | finished _ => exact .nil _
  | spent _ => exact .nil _
  | failed _ asks => exact asks.adds

theorem Expansions.adds {cache final : Cache} {calls : List (Nat × String)}
    {logs : List (List (List Request))} {answers : List (Except IncludeError String)}
    (expansions : Expansions cache calls logs answers final) :
    Adds cache logs.flatten.flatten final := by
  induction expansions with
  | nil cache => exact .nil cache
  | cons first rest ih =>
      rw [List.flatten_cons, List.flatten_append]
      exact first.adds.append ih

theorem fragmentPath_injective : Function.Injective fragmentPath := by
  intro first second same
  unfold fragmentPath at same
  rwa [String.append_left_inj, String.append_right_inj] at same

theorem filterMap_loadedPath? (requests : List Request) :
    requests.filterMap Request.loadedPath? = (loadedNames requests).map fragmentPath := by
  unfold loadedNames
  rw [List.map_map, List.map_filterMap]
  rfl

variable {σ : Type}

/-- Expansions that share a cache ask, round by round, for the fragments that are invoked
and missing, in order of first appearance and up to the first failure.  Over all of them
no fragment is given twice, whatever the loader answers; what is in the cache stays there,
also if an expansion fails; and the cache grows by what was given. -/
theorem expandEach_recorded (loader : Loader (StateM σ)) (cache : Cache)
    (calls : List (Nat × String)) (state : σ) :
    let ran := (expandEach loader cache calls).run state
    ∃ logs : List (List (List Request)),
      ((expandEach loader.recorded cache calls).run []).run state =
        ((ran.1, logs.flatten.flatten.map Request.event), ran.2) ∧
      Expansions cache calls logs ran.1.1 ran.1.2 ∧
      (logs.flatten.flatten.filterMap Request.loadedPath?).Nodup ∧
      ran.1.2 = cache.extend logs.flatten.flatten ∧
      (∀ name fragment, cache.get? name = some fragment →
        ran.1.2.get? name = some fragment) ∧
      ran.1.2.size =
        cache.size + (logs.flatten.flatten.filterMap Request.loadedPath?).length := by
  intro ran
  obtain ⟨trace, path, recorded⟩ := Program.interpret_recorded (Handler.of loader Saver.idle)
    (expandEach Program.loader cache calls) [] state
  rw [← Handler.of_recorded, interpret_expandEach, interpret_expandEach, List.nil_append]
    at recorded
  rw [interpret_expandEach] at path
  obtain ⟨logs, expansions, rfl⟩ := expansions_of_run path
  have adds := expansions.adds
  refine ⟨logs, recorded, expansions, ?_, adds.final_eq, ?_, ?_⟩
  · rw [filterMap_loadedPath?]
    exact adds.nodup.map fragmentPath_injective
  · intro name fragment found
    rw [show ran.1.2 = _ from adds.final_eq]
    exact Cache.get?_extend_of_eq_some found _
  · rw [show ran.1.2 = _ from adds.final_eq, Cache.size_extend, filterMap_loadedPath?,
      List.length_map]

end WikiPress.Include
