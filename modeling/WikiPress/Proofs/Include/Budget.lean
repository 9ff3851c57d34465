import WikiPress.Proofs.Call.Recording
import WikiPress.Proofs.Include.Rounds

/-!
# Outcome and budget

Against a loader with fixed answers the rounds of a text are determined: a limit only says
how many of them may be performed.  An expansion that ends within its limit is therefore
the same under every larger one, and one that overflows does so under every smaller one.
What it returns holds no invocation.
-/

namespace WikiPress.Include

/-- Whether requests were answered as a loader without state answers them. -/
def AnsweredBy (answers : Loader Id) (log : List (List Request)) : Prop :=
  ∀ request ∈ log.flatten, request.answer = (answers.load (fragmentPath request.name)).run

variable {answers : Loader Id} {limit : Nat} {cache reached final : Cache} {text result : String}
  {log : List (List Request)} {answer : Except IncludeError String}

/-- An end without requests needs no answers. -/
theorem answeredBy_append_nil_iff : AnsweredBy answers (log ++ [[]]) ↔ AnsweredBy answers log := by
  simp [AnsweredBy]

/-- With fixed answers, an expansion ends as the one whose requests are answered so. -/
theorem run_expand_eq_iff :
    (expand answers limit cache text).run = (answer, final) ↔
      ∃ log, Expansion limit limit cache text log answer final ∧ AnsweredBy answers log := by
  have valueEq : (expand answers limit cache text).run =
      (expand Program.loader limit cache text).value (Answers.of answers Saver.idle) := by
    rw [← Program.interpret_id, interpret_expand]
  constructor
  · intro ends
    have run := Program.run_of_answers (Answers.of answers Saver.idle)
      (expand Program.loader limit cache text)
    rw [← valueEq, ends] at run
    obtain ⟨log, expansion, traceEq⟩ := run_expandRounds_iff.mp run
    refine ⟨log, expansion, fun request member => ?_⟩
    have asked : request.event ∈ log.flatten.map Request.event := List.mem_map_of_mem member
    rw [← traceEq] at asked
    obtain ⟨call, -, same⟩ := List.mem_map.mp asked
    obtain ⟨rfl, answerEq⟩ := Event.mk.inj same
    exact (eq_of_heq answerEq).symm
  · rintro ⟨log, expansion, answered⟩
    have run := run_expandRounds_iff.mpr ⟨log, expansion, rfl⟩
    rw [valueEq]
    apply Program.Run.value_eq run
    intro event member
    obtain ⟨request, isRequest, rfl⟩ := List.mem_map.mp member
    exact answered request isRequest

/-! ## Parts of rounds -/

theorem Rounds.append_iff {second : List (List Request)} :
    Rounds cache text (log ++ second) reached result ↔
      ∃ middle between, Rounds cache text log middle between ∧
        Rounds middle between second reached result := by
  induction log generalizing cache text with
  | nil =>
      constructor
      · intro rounds
        exact ⟨cache, text, .none cache text, rounds⟩
      · rintro ⟨middle, between, first, rest⟩
        cases first
        exact rest
  | cons requests log ih =>
      rw [List.cons_append]
      constructor
      · rintro (_ | ⟨pending, asks, rest⟩)
        obtain ⟨middle, between, first, second⟩ := ih.mp rest
        exact ⟨middle, between, .next pending asks first, second⟩
      · rintro ⟨middle, between, _ | ⟨pending, asks, first⟩, second⟩
        exact .next pending asks (ih.mpr ⟨middle, between, first, second⟩)

/-- A text that leads to one with an invocation holds one itself. -/
theorem Rounds.holdsInvocation (rounds : Rounds cache text log reached result)
    (holds : HoldsInvocation result) : HoldsInvocation text := by
  cases rounds with
  | none => exact holds
  | next pending _ _ => exact pending

/-- Without a failure, every name that is asked for gets an entry. -/
theorem Asks.exists_entry {names : List String} {requests : List Request}
    (asks : Asks names requests (.ok ())) {name : String} (member : name ∈ names) :
    ∃ fragment, (requests.filterMap Request.entry?).lookup name = some fragment := by
  generalize answered : (Except.ok () : Except LoadError Unit) = answer at asks
  induction asks with
  | all => cases member
  | failed name names error => cases answered
  | @loaded names requests answer first fragment rest ih =>
      have entries : (⟨first, .ok fragment⟩ :: requests : List Request).filterMap Request.entry? =
          (first, fragment) :: requests.filterMap Request.entry? := rfl
      rw [entries, List.lookup_cons]
      by_cases same : name = first
      · exact ⟨fragment, by simp [same]⟩
      · have different : (name == first) = false := beq_false_of_ne same
        rw [different]
        exact ih ((List.mem_cons.mp member).resolve_left same) answered

/-- Behind a round that is completed, everything that its text invokes is in the cache. -/
theorem Asks.exists_fragment {requests : List Request}
    (asks : Asks (missingNames cache text) requests (.ok ())) {name : String}
    (invoked : name ∈ invokedNames text) :
    ∃ fragment, (cache.extend requests).get? name = some fragment := by
  unfold Cache.get?
  rw [Cache.extend, List.lookup_append]
  cases held : cache.entries.lookup name with
  | some fragment => exact ⟨fragment, rfl⟩
  | none =>
      have missing : name ∈ missingNames cache text := by
        refine List.mem_filter.mpr ⟨invoked, ?_⟩
        simp [Cache.contains, Cache.get?, held]
      exact asks.exists_entry missing

/-! ## Outcomes -/

/-- What an expansion with fixed answers gives, its answer and its cache. -/
def outcome (answers : Loader Id) (cache : Cache) (text : String) (limit : Nat) :
    Except IncludeError String × Cache :=
  (expand answers limit cache text).run

theorem exists_expansion (answers : Loader Id) (cache : Cache) (text : String) (limit : Nat) :
    ∃ log, Expansion limit limit cache text log (outcome answers cache text limit).1
      (outcome answers cache text limit).2 ∧ AnsweredBy answers log :=
  run_expand_eq_iff.mp rfl

/-- An expansion overflows exactly if as many rounds as it may perform leave an invocation. -/
theorem outcome_overflow_iff {spent : Nat} :
    (outcome answers cache text limit).1 = .error (.overflow spent) ↔
      spent = limit ∧ ∃ log reached result, Rounds cache text log reached result ∧
        AnsweredBy answers log ∧ log.length = limit ∧ HoldsInvocation result := by
  constructor
  · intro overflows
    obtain ⟨log, expansion, answered⟩ := exists_expansion answers cache text limit
    rw [overflows] at expansion
    obtain ⟨count, rounds, ends⟩ := expansion
    cases ends with
    | spent pending =>
        exact ⟨rfl, _, _, _, rounds, answeredBy_append_nil_iff.mp answered, count, pending⟩
  · rintro ⟨rfl, log, reached, result, rounds, answered, count, pending⟩
    have expansion : Expansion spent spent cache text (log ++ [[]])
        (.error (.overflow spent)) reached := .intro count rounds (.spent pending)
    have again := answeredBy_append_nil_iff.mpr answered
    exact congrArg Prod.fst (run_expand_eq_iff.mpr ⟨_, expansion, again⟩)

/-- An end that is no overflow is one with more rounds left, too. -/
theorem Ends.mono {left : Nat} {last : List Request}
    (ends : Ends limit left cache text last answer final)
    (notSpent : ∀ spent, answer ≠ .error (.overflow spent)) (other more : Nat) :
    Ends other (left + more) cache text last answer final := by
  cases ends with
  | finished done => exact .finished done
  | spent pending => exact absurd rfl (notSpent limit)
  | failed pending asks =>
      rw [Nat.succ_add]
      exact .failed pending asks

/-- An expansion that ends within its limit never comes to feel it. -/
theorem Expansion.mono {budget larger : Nat} (within : budget ≤ larger)
    (expansion : Expansion limit budget cache text log answer final)
    (notSpent : ∀ spent, answer ≠ .error (.overflow spent)) (other : Nat) :
    Expansion other larger cache text log answer final := by
  obtain ⟨count, rounds, ends⟩ := expansion
  obtain ⟨more, rfl⟩ := Nat.exists_eq_add_of_le within
  exact .intro (by omega) rounds (ends.mono notSpent other more)

theorem outcome_eq_of_le {larger : Nat} (within : limit ≤ larger)
    (notSpent : ∀ spent, (outcome answers cache text limit).1 ≠ .error (.overflow spent)) :
    outcome answers cache text larger = outcome answers cache text limit := by
  obtain ⟨log, expansion, answered⟩ := exists_expansion answers cache text limit
  exact run_expand_eq_iff.mpr ⟨log, expansion.mono within notSpent larger, answered⟩

theorem outcome_overflow_of_le {smaller spent : Nat} (within : smaller ≤ limit)
    (overflows : (outcome answers cache text limit).1 = .error (.overflow spent)) :
    (outcome answers cache text smaller).1 = .error (.overflow smaller) := by
  obtain ⟨-, log, reached, result, rounds, answered, count, pending⟩ :=
    outcome_overflow_iff.mp overflows
  rw [← List.take_append_drop smaller log, Rounds.append_iff] at rounds
  obtain ⟨middle, between, first, rest⟩ := rounds
  refine outcome_overflow_iff.mpr ⟨rfl, log.take smaller, middle, between, first, ?_, ?_, ?_⟩
  · intro request member
    obtain ⟨requests, inFirst, isRequest⟩ := List.mem_flatten.mp member
    have inLog := List.mem_of_mem_take inFirst
    exact answered request (List.mem_flatten.mpr ⟨requests, inLog, isRequest⟩)
  · rw [List.length_take, count]
    omega
  · exact rest.holdsInvocation pending

/-- What an expansion returns holds no invocation. -/
theorem not_holdsInvocation_of_outcome
    (returns : (outcome answers cache text limit).1 = .ok result) : ¬ HoldsInvocation result := by
  obtain ⟨log, expansion, -⟩ := exists_expansion answers cache text limit
  rw [returns] at expansion
  obtain ⟨-, -, ends⟩ := expansion
  cases ends with
  | finished done => exact done

section Steady

variable {σ : Type} {invariant : σ → Prop} {loader : Loader (StateM σ)}

theorem yields_expand (steady : loader.Steady invariant answers) (limit : Nat) (cache : Cache)
    (text : String) :
    Yields invariant (expand loader limit cache text) (outcome answers cache text limit) := by
  have yields := Program.interpret_yields steady.handler (expand Program.loader limit cache text)
  rw [interpret_expand, ← Program.interpret_id, interpret_expand] at yields
  exact yields

/-- The outcome of an expansion against its budget, with a steady loader.  It is that of
rounds with the answers of the loader.  A text that is returned holds no invocation, and
expanding it gives it again without a request.  The expansion overflows exactly if as many
rounds as its limit allows were performed without a failure and leave an invocation; any
other outcome is the same under every larger limit, and an overflow is one under every
smaller limit.  And a round replaces every invocation by a fragment that is in the cache,
so none is left as it is for want of a fragment. -/
theorem expand_against_budget (steady : loader.Steady invariant answers) (state : σ)
    (holds : invariant state) (cache : Cache) (text : String) (limit : Nat) :
    let outcome (limit : Nat) := ((expand loader limit cache text).run state).1
    (∃ log, Expansion limit limit cache text log (outcome limit).1 (outcome limit).2 ∧
      AnsweredBy answers log) ∧
    (∀ result, (outcome limit).1 = .ok result → ¬ HoldsInvocation result ∧
      ∀ (again : Nat) (other : Cache) (later : σ),
        ((expand loader.recorded again other result).run []).run later =
          (((.ok result, other), []), later)) ∧
    (∀ spent, (outcome limit).1 = .error (.overflow spent) ↔
      spent = limit ∧ ∃ log reached result, Rounds cache text log reached result ∧
        AnsweredBy answers log ∧ log.length = limit ∧ HoldsInvocation result) ∧
    ((∀ spent, (outcome limit).1 ≠ .error (.overflow spent)) →
      ∀ larger, limit ≤ larger → outcome larger = outcome limit) ∧
    (∀ spent, (outcome limit).1 = .error (.overflow spent) →
      ∀ smaller, smaller ≤ limit → (outcome smaller).1 = .error (.overflow smaller)) ∧
    ∀ log reached current requests, Rounds cache text log reached current →
      Asks (missingNames reached current) requests (.ok ()) →
      ∀ call source, Piece.call call source ∈ invocationPieces current.toList →
        ∃ fragment, (reached.extend requests).get? (String.ofList call.name) = some fragment ∧
          call.expand (reached.extend requests) source =
            (fillPlaceholders fragment call.argumentList).toList := by
  intro given
  have givenEq (limit : Nat) : given limit = outcome answers cache text limit :=
    (yields_expand steady limit cache text state holds).1
  simp only [givenEq]
  refine ⟨exists_expansion answers cache text limit, ?_, fun spent => outcome_overflow_iff,
    fun notSpent larger within => outcome_eq_of_le within notSpent,
    fun spent overflows smaller within => outcome_overflow_of_le within overflows, ?_⟩
  · intro result returns
    have done := not_holdsInvocation_of_outcome returns
    refine ⟨done, fun again other later => ?_⟩
    rw [expand, expandRounds_of_not_holdsInvocation loader.recorded again again other done]
    rfl
  · intro log reached current requests _ asks call source member
    obtain ⟨fragment, found⟩ := asks.exists_fragment (name_mem_invokedNames member)
    refine ⟨fragment, found, ?_⟩
    unfold Invocation.expand
    rw [found]

end Steady

/-- A loader of two fragments, which counts its calls.  The first one invokes the second. -/
def linkedFragments : Loader (StateM Nat) where
  load path := do
    modify (· + 1)
    return if path = "_first.html" then .ok "<\x7b\x7bsecond\x7d\x7d>"
      else if path = "_second.html" then .ok "end" else .error (.notFound path)
  loadBinary path := return .error (.notFound path)
  glob _ := return .ok []

/-- The same fragments without the count. -/
def plainFragments : Loader Id where
  load path := ((linkedFragments.load path).run 0).1
  loadBinary path := ((linkedFragments.loadBinary path).run 0).1
  glob pattern := ((linkedFragments.glob pattern).run 0).1

theorem steady_linkedFragments : linkedFragments.Steady (fun _ => True) plainFragments :=
  ⟨fun _ _ _ => ⟨rfl, trivial⟩, fun _ _ _ => ⟨rfl, trivial⟩, fun _ _ _ => ⟨rfl, trivial⟩⟩

/-- Two rounds are enough for the first fragment, and one is not. -/
theorem expand_against_budget_linkedFragments :
    let outcome (limit : Nat) :=
      ((expand linkedFragments limit {} "\x7b\x7bfirst\x7d\x7d").run 0).1
    linkedFragments.Steady (fun _ => True) plainFragments ∧
      (outcome 2).1 = .ok "<end>" ∧ ¬ HoldsInvocation "<end>" ∧ outcome 500 = outcome 2 ∧
      (outcome 1).1 = .error (.overflow 1) ∧ (outcome 0).1 = .error (.overflow 0) := by
  intro outcome
  have ends : (outcome 2).1 = .ok "<end>" := by decide +kernel
  have overflows : (outcome 1).1 = .error (.overflow 1) := by decide +kernel
  obtain ⟨-, returns, -, within, -, -⟩ := expand_against_budget steady_linkedFragments 0 trivial {}
    "\x7b\x7bfirst\x7d\x7d" 2
  obtain ⟨-, -, -, -, beyond, -⟩ := expand_against_budget steady_linkedFragments 0 trivial {}
    "\x7b\x7bfirst\x7d\x7d" 1
  refine ⟨steady_linkedFragments, ends, (returns _ ends).1, within ?_ 500 (by decide), overflows,
    beyond 1 overflows 0 (by decide)⟩
  intro spent overflow
  cases ends.symm.trans overflow

end WikiPress.Include
