import WikiPress.Proofs.Call.Recording

/-!
# Expansion does not show its cache

Against a loader without state, every fragment that an expansion keeps is the one
that the loader would give again.  Two expansions of one text from different caches
of this kind therefore go through the same rounds, fail for the same name or for
the same limit, and end in the same text; only the loads that they make differ.
-/

namespace WikiPress.Include

/-! ## Loaders without state -/

theorem run_loadMissing_cons (answers : Loader Id) (name : String) (names : List String)
    (cache : Cache) :
    (loadMissing answers (name :: names) cache).run =
      if cache.contains name then (loadMissing answers names cache).run
      else
        match (answers.load (fragmentPath name)).run with
        | .ok fragment => (loadMissing answers names (cache.insert name fragment)).run
        | .error error => (.error error, cache) := by
  simp only [loadMissing]
  split
  · rfl
  · rw [Id.run_bind]
    cases (answers.load (fragmentPath name)).run <;> rfl

theorem run_expandRounds_succ (answers : Loader Id) (limit remaining : Nat) (cache : Cache)
    (text : String) :
    (expandRounds answers limit (remaining + 1) cache text).run =
      if (invokedNames text).isEmpty then (.ok text, cache)
      else
        match (loadMissing answers (invokedNames text) cache).run with
        | (.error error, loaded) => (.error (.load error), loaded)
        | (.ok (), loaded) =>
          (expandRounds answers limit remaining loaded (substitute loaded text)).run := by
  simp only [expandRounds]
  split
  · rfl
  · rw [Id.run_bind]
    rcases (loadMissing answers (invokedNames text) cache).run with ⟨_ | _, _⟩ <;> rfl

/-! ## Agreement with a loader -/

/-- Every fragment of a cache is the one that a loader gives. -/
def Cache.Agrees (cache : Cache) (answers : Loader Id) : Prop :=
  ∀ name fragment, cache.get? name = some fragment →
    (answers.load (fragmentPath name)).run = .ok fragment

namespace Cache.Agrees

variable {cache other : Cache} {answers : Loader Id}

theorem empty (answers : Loader Id) : Cache.Agrees {} answers := by
  intro name fragment found
  rw [get?_empty] at found
  contradiction

theorem insert (agrees : cache.Agrees answers) {name fragment : String}
    (loaded : (answers.load (fragmentPath name)).run = .ok fragment) :
    (cache.insert name fragment).Agrees answers := by
  intro sought kept found
  rw [get?_insert] at found
  by_cases same : sought = name
  · rw [if_pos same] at found
    cases found
    rw [same]
    exact loaded
  · rw [if_neg same] at found
    exact agrees sought kept found

/-- Two caches that agree with one loader have no different fragments. -/
theorem fragment_eq (agrees : cache.Agrees answers) (otherAgrees : other.Agrees answers)
    {name fragment otherFragment : String} (found : cache.get? name = some fragment)
    (otherFound : other.get? name = some otherFragment) : otherFragment = fragment := by
  have given := agrees name fragment found
  have otherGiven := otherAgrees name otherFragment otherFound
  exact Except.ok.inj (otherGiven.symm.trans given)

end Cache.Agrees

/-! ## Loading what is missing -/

/-- Load the fragments of names one after the other, up to the first failure. -/
def loadEach (answers : Loader Id) : List String → Except LoadError Unit
  | [] => .ok ()
  | name :: names =>
    match (answers.load (fragmentPath name)).run with
    | .ok _ => loadEach answers names
    | .error error => .error error

/-- What it means for names that their fragments have been loaded from a cache on,
up to the first failure. -/
structure Loading (answers : Loader Id) (names : List String) (cache : Cache)
    (answer : Except LoadError Unit) (loaded : Cache) : Prop where
  /-- The answer is that of a loading that starts with nothing. -/
  answer_eq : answer = loadEach answers names
  agrees : loaded.Agrees answers
  keeps : ∀ name fragment, cache.get? name = some fragment → loaded.get? name = some fragment
  holds : answer = .ok () → ∀ name ∈ names, ∃ fragment, loaded.get? name = some fragment

theorem loading_loadMissing {answers : Loader Id} {cache : Cache}
    (agrees : cache.Agrees answers) (names : List String) :
    Loading answers names cache (loadMissing answers names cache).run.1
      (loadMissing answers names cache).run.2 := by
  induction names generalizing cache with
  | nil => exact ⟨rfl, agrees, fun _ _ found => found, by simp⟩
  | cons name names ih =>
      rw [run_loadMissing_cons]
      by_cases present : cache.contains name = true
      · obtain ⟨kept, found⟩ := Cache.contains_iff.mp present
        have rest := ih agrees
        rw [if_pos present]
        refine ⟨?_, rest.agrees, rest.keeps, ?_⟩
        · rw [rest.answer_eq, loadEach, agrees name kept found]
        · intro succeeded sought member
          rcases List.mem_cons.mp member with rfl | later
          · exact ⟨kept, rest.keeps sought kept found⟩
          · exact rest.holds succeeded sought later
      · rw [if_neg present]
        cases answered : (answers.load (fragmentPath name)).run with
        | error error =>
            refine ⟨?_, agrees, fun _ _ found => found, ?_⟩
            · rw [loadEach, answered]
            · intro succeeded
              contradiction
        | ok fragment =>
            have rest := ih (agrees.insert answered)
            have absent := Cache.get?_eq_none_of_not_contains present
            refine ⟨?_, rest.agrees, ?_, ?_⟩
            · rw [rest.answer_eq, loadEach, answered]
            · intro sought kept found
              apply rest.keeps
              rw [Cache.get?_insert, if_neg, found]
              rintro rfl
              rw [absent] at found
              contradiction
            · intro succeeded sought member
              rcases List.mem_cons.mp member with rfl | later
              · exact ⟨fragment, rest.keeps sought fragment (by simp [Cache.get?_insert])⟩
              · exact rest.holds succeeded sought later

/-! ## Rounds -/

/-- Caches that agree with one loader and hold all fragments that a text invokes
lead to the same text. -/
theorem substitute_eq {answers : Loader Id} {cache other : Cache} {text : String}
    (agrees : cache.Agrees answers) (otherAgrees : other.Agrees answers)
    (holds : ∀ name ∈ invokedNames text, ∃ fragment, cache.get? name = some fragment)
    (otherHolds : ∀ name ∈ invokedNames text, ∃ fragment, other.get? name = some fragment) :
    substitute other text = substitute cache text := by
  unfold substitute
  congr 1
  apply Piece.render_congr
  intro call source member
  have invoked := name_mem_invokedNames member
  obtain ⟨fragment, found⟩ := holds _ invoked
  obtain ⟨otherFragment, otherFound⟩ := otherHolds _ invoked
  have same := agrees.fragment_eq otherAgrees found otherFound
  simp only [Invocation.expand, found, otherFound, same]

/-- What two expansions of one text have in common, whatever their caches. -/
structure SameExpansion (answers : Loader Id)
    (first second : Except IncludeError String × Cache) : Prop where
  answer_eq : second.1 = first.1
  agrees : first.2.Agrees answers
  otherAgrees : second.2.Agrees answers

/-- A round from one cache is a round from any other that agrees with the loader: the
same names make it fail, and otherwise it leads to the same text. -/
theorem expandRounds_same {answers : Loader Id} {cache other : Cache}
    (agrees : cache.Agrees answers) (otherAgrees : other.Agrees answers)
    (limit remaining : Nat) (text : String) :
    SameExpansion answers (expandRounds answers limit remaining cache text).run
      (expandRounds answers limit remaining other text).run := by
  induction remaining generalizing cache other text with
  | zero => exact ⟨rfl, agrees, otherAgrees⟩
  | succ remaining ih =>
      rw [run_expandRounds_succ, run_expandRounds_succ]
      by_cases finished : (invokedNames text).isEmpty = true
      · rw [if_pos finished, if_pos finished]
        exact ⟨rfl, agrees, otherAgrees⟩
      · rw [if_neg finished, if_neg finished]
        have loading := loading_loadMissing agrees (invokedNames text)
        have otherLoading := loading_loadMissing otherAgrees (invokedNames text)
        generalize (loadMissing answers (invokedNames text) cache).run = outcome at loading ⊢
        generalize (loadMissing answers (invokedNames text) other).run = otherOutcome
          at otherLoading ⊢
        rcases outcome with ⟨answer, loaded⟩
        rcases otherOutcome with ⟨otherAnswer, otherLoaded⟩
        have sameAnswer : otherAnswer = answer :=
          otherLoading.answer_eq.trans loading.answer_eq.symm
        subst otherAnswer
        cases answer with
        | error error => exact ⟨rfl, loading.agrees, otherLoading.agrees⟩
        | ok _ =>
            have sameText : substitute otherLoaded text = substitute loaded text :=
              substitute_eq loading.agrees otherLoading.agrees (loading.holds rfl)
                (otherLoading.holds rfl)
            simp only
            rw [sameText]
            exact ih loading.agrees otherLoading.agrees (substitute loaded text)

theorem expand_same {answers : Loader Id} {cache other : Cache}
    (agrees : cache.Agrees answers) (otherAgrees : other.Agrees answers)
    (limit : Nat) (text : String) :
    SameExpansion answers (expand answers limit cache text).run
      (expand answers limit other text).run :=
  expandRounds_same agrees otherAgrees limit limit text

end WikiPress.Include
