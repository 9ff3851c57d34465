import WikiPress.Proofs.Call.Usage
import WikiPress.Proofs.Include.SharedCache

/-!
# Pages do not see each other

The pages of a run are rendered on one context, into which every call puts the
fragments that it loaded, also when it fails.  As long as the loader gives steady
answers, no call shows which calls were made before it: its answer and the page that
it leaves are those of a call on a new context.  A page therefore changes only with
its own file and with the fragments that it asks for.
-/

namespace WikiPress.Page

open Files Include

/-! ## Calls on one context -/

section Calls

variable {m : Type → Type} [Monad m]

/-- Render pages one after the other on one context; a failure stops nothing.  Every
call is shown by its answer and the page that it leaves. -/
def renderEach (loader : Loader m) (includeLimit : Nat) :
    RenderContext → List Page → m (List (Except PageError RenderedPage × Page))
  | _, [] => return []
  | context, page :: pages => do
    let (answer, filled, context) ← page.render loader includeLimit context
    let outcomes ← renderEach loader includeLimit context pages
    return (answer, filled) :: outcomes

/-- Render a page on a context that nothing else is rendered on. -/
def renderAlone (loader : Loader m) (includeLimit : Nat) (context : RenderContext)
    (page : Page) : m (Except PageError RenderedPage × Page) := do
  let (answer, filled, _) ← page.render loader includeLimit context
  return (answer, filled)

end Calls

/-- The calls by which a page that can be loaded asks for fragments. -/
def fragmentCalls (answers : Loader Id) (includeLimit : Nat) (page : Page) : List Call :=
  match (answers.load page.sourcePath).run with
  | .error _ => []
  | .ok source =>
    (expand Program.loader includeLimit {} source).calls (Answers.of answers Saver.idle)

/-! ## Rendering without state -/

variable {answers other : Loader Id}

theorem run_render (answers : Loader Id) (includeLimit : Nat) (context : RenderContext)
    (page : Page) :
    (page.render answers includeLimit context).run =
      match (answers.load page.sourcePath).run with
      | .error error => (.error (.load error), page, context)
      | .ok source =>
        match (expand answers includeLimit context.fragments source).run with
        | (.error error, fragments) => (.error (.expand error), page, { context with fragments })
        | (.ok expanded, fragments) =>
          (.ok (renderSource Engine.wiki context.pages (page.withSource source expanded)),
            page.withSource source expanded, { context with fragments }) := by
  unfold render
  rw [Id.run_bind]
  cases (answers.load page.sourcePath).run with
  | error error => rfl
  | ok source =>
      simp only
      rw [Id.run_bind]
      rcases (expand answers includeLimit context.fragments source).run with ⟨_ | _, _⟩ <;> rfl

/-- What two calls for one page have in common, on contexts that know the same pages
and whose fragments a loader would give again. -/
structure SameCall (answers : Loader Id)
    (first second : Except PageError RenderedPage × Page × RenderContext) : Prop where
  answer_eq : second.1 = first.1
  page_eq : second.2.1 = first.2.1
  pages_eq : second.2.2.pages = first.2.2.pages
  agrees : first.2.2.fragments.Agrees answers

theorem render_same {context new : RenderContext} (agrees : context.fragments.Agrees answers)
    (newAgrees : new.fragments.Agrees answers) (pagesEq : new.pages = context.pages)
    (includeLimit : Nat) (page : Page) :
    SameCall answers (page.render answers includeLimit context).run
      (page.render answers includeLimit new).run := by
  rw [run_render, run_render]
  cases (answers.load page.sourcePath).run with
  | error error => exact ⟨rfl, rfl, pagesEq, agrees⟩
  | ok source =>
      have same := expand_same agrees newAgrees includeLimit source
      simp only
      generalize (expand answers includeLimit context.fragments source).run = first at same ⊢
      generalize (expand answers includeLimit new.fragments source).run = second at same ⊢
      rcases first with ⟨result, fragments⟩
      rcases second with ⟨newResult, newFragments⟩
      have resultEq : newResult = result := same.answer_eq
      subst newResult
      cases result with
      | error error => exact ⟨rfl, rfl, pagesEq, same.agrees⟩
      | ok expanded =>
          refine ⟨?_, rfl, pagesEq, same.agrees⟩
          simp only [pagesEq]

theorem render_pages (answers : Loader Id) (includeLimit : Nat) (context : RenderContext)
    (page : Page) :
    (page.render answers includeLimit context).run.2.2.pages = context.pages := by
  rw [run_render]
  cases (answers.load page.sourcePath).run with
  | error error => rfl
  | ok source =>
      simp only
      rcases (expand answers includeLimit context.fragments source).run with ⟨_ | _, _⟩ <;> rfl

/-- Every call on a context whose fragments the loader would give again is the call
on a new context that knows the same pages. -/
theorem renderEach_eq_map {context new : RenderContext}
    (agrees : context.fragments.Agrees answers) (newAgrees : new.fragments.Agrees answers)
    (pagesEq : new.pages = context.pages) (includeLimit : Nat) (calls : List Page) :
    (renderEach answers includeLimit context calls).run =
      calls.map fun page => (renderAlone answers includeLimit new page).run := by
  induction calls generalizing context with
  | nil => rfl
  | cons page calls ih =>
      have same := render_same agrees newAgrees pagesEq includeLimit page
      have kept := render_pages answers includeLimit context page
      have rest := ih same.agrees (pagesEq.trans kept.symm)
      have first : (renderAlone answers includeLimit new page).run =
          ((page.render answers includeLimit context).run.1,
            (page.render answers includeLimit context).run.2.1) := by
        rw [← same.answer_eq, ← same.page_eq]
        rfl
      rw [List.map_cons, first, ← rest]
      rfl

/-! ## Calls of a page -/

/-- A page asks for its own file, and then for its fragments. -/
theorem calls_render (answers : Loader Id) (includeLimit : Nat) (pages : List Page)
    (page : Page) :
    (page.render Program.loader includeLimit (RenderContext.ofPages pages)).calls
        (Answers.of answers Saver.idle) =
      .load page.sourcePath :: page.fragmentCalls answers includeLimit := by
  have asked : (Program.loader.load page.sourcePath).calls (Answers.of answers Saver.idle) =
      [.load page.sourcePath] := rfl
  have loaded : (Program.loader.load page.sourcePath).value (Answers.of answers Saver.idle) =
      (answers.load page.sourcePath).run := rfl
  unfold render fragmentCalls
  rw [Program.calls_bind, asked, loaded, List.singleton_append]
  cases (answers.load page.sourcePath).run with
  | error error => rfl
  | ok source =>
      simp only [Program.calls_bind, RenderContext.ofPages]
      split <;> simp

/-- A page that asks neither as a page nor for a fragment for a file does not change
with that file. -/
theorem renderAlone_congr {changed : Path}
    (same : ∀ path, path ≠ changed → other.load path = answers.load path)
    (includeLimit : Nat) (pages : List Page) {page : Page} (apart : page.sourcePath ≠ changed)
    (unasked : .load changed ∉ page.fragmentCalls answers includeLimit) :
    (renderAlone other includeLimit (RenderContext.ofPages pages) page).run =
      (renderAlone answers includeLimit (RenderContext.ofPages pages) page).run := by
  have agree : ∀ call ∈ (page.render Program.loader includeLimit
      (RenderContext.ofPages pages)).calls (Answers.of answers Saver.idle),
      Answers.of other Saver.idle call = Answers.of answers Saver.idle call := by
    intro call member
    rw [calls_render] at member
    rcases List.mem_cons.mp member with rfl | fragment
    · exact same page.sourcePath apart
    · have asks := fragment
      unfold fragmentCalls at fragment
      split at fragment
      · contradiction
      · obtain ⟨name, rfl⟩ := (uses_expandRounds _ _ _ _).of_mem_calls call fragment
        apply same
        rintro rfl
        exact unasked asks
  have values := (Program.value_and_calls_congr agree).1
  rw [← Program.interpret_id, ← Program.interpret_id, interpret_render, interpret_render]
    at values
  unfold renderAlone
  rw [Id.run_bind, Id.run_bind, values]

/-! ## Steady loaders -/

variable {σ τ : Type} {invariant : σ → Prop} {loader : Loader (StateM σ)}

theorem yields_renderAlone (steady : loader.Steady invariant answers) (includeLimit : Nat)
    (context : RenderContext) (page : Page) :
    Yields invariant (renderAlone loader includeLimit context page)
      (renderAlone answers includeLimit context page).run :=
  (steady.render includeLimit context page).bind (Yields.pure invariant _)

theorem yields_renderEach (steady : loader.Steady invariant answers) (includeLimit : Nat)
    (context : RenderContext) (calls : List Page) :
    Yields invariant (renderEach loader includeLimit context calls)
      (renderEach answers includeLimit context calls).run := by
  induction calls generalizing context with
  | nil => exact Yields.pure invariant []
  | cons page calls ih =>
      exact (steady.render includeLimit context page).bind
        ((ih _).bind (Yields.pure invariant _))

/-- A call that fails leaves its page as it was. -/
theorem page_eq_of_renderAlone_error (answers : Loader Id) {includeLimit : Nat}
    {context : RenderContext} {page : Page} {error : PageError}
    (failed : (renderAlone answers includeLimit context page).run.1 = .error error) :
    (renderAlone answers includeLimit context page).run.2 = page := by
  have outcome : (renderAlone answers includeLimit context page).run =
      ((page.render answers includeLimit context).run.1,
        (page.render answers includeLimit context).run.2.1) := rfl
  rw [outcome] at failed ⊢
  rw [run_render] at failed ⊢
  cases loaded : (answers.load page.sourcePath).run with
  | error error => rfl
  | ok source =>
      rw [loaded] at failed
      simp only at failed ⊢
      generalize (expand answers includeLimit context.fragments source).run = expanded
        at failed ⊢
      rcases expanded with ⟨_ | _, _⟩
      · rfl
      · contradiction

/-- Pages that are rendered on one context are isolated from each other.  With a
steady loader every call, whatever was called before and whatever of it failed, has
the outcome of a call on a new context; a call that fails leaves its page as it was;
and a change of one file changes no outcome but those of the page that it is the
source of and of the pages that ask for it as a fragment. -/
theorem renderEach_isolated (steady : loader.Steady invariant answers) (state : σ)
    (holds : invariant state) (config : Config) (pages calls : List Page) :
    let context := RenderContext.ofPages pages
    let outcomes := ((renderEach loader config.includeLimit context calls).run state).1
    (outcomes = calls.map fun page =>
      ((renderAlone loader config.includeLimit context page).run state).1) ∧
    (∀ (index : Nat) (page filled : Page) (error : PageError), calls[index]? = some page →
      outcomes[index]? = some (.error error, filled) → filled = page) ∧
    ∀ {τ : Type} {otherInvariant : τ → Prop} {otherLoader : Loader (StateM τ)}
      {other : Loader Id} {otherState : τ} (changed : Path),
      otherLoader.Steady otherInvariant other → otherInvariant otherState →
      (∀ path, path ≠ changed → other.load path = answers.load path) →
      ∀ (index : Nat) (page : Page), calls[index]? = some page →
        page.sourcePath ≠ changed →
        .load changed ∉ page.fragmentCalls answers config.includeLimit →
        ((renderEach otherLoader config.includeLimit context calls).run
          otherState).1[index]? = outcomes[index]? := by
  intro context outcomes
  have fresh := Cache.Agrees.empty
  have outcomesEq : outcomes = calls.map fun page =>
      (renderAlone answers config.includeLimit context page).run :=
    (yields_renderEach steady config.includeLimit context calls state holds).1.trans
      (renderEach_eq_map (fresh answers) (fresh answers) rfl config.includeLimit calls)
  refine ⟨?_, ?_, ?_⟩
  · rw [outcomesEq]
    apply List.map_congr_left
    intro page _
    exact (yields_renderAlone steady config.includeLimit context page state holds).1.symm
  · intro index page filled error called outcome
    rw [outcomesEq, List.getElem?_map, called] at outcome
    have aloneEq := Option.some.inj outcome
    have left := page_eq_of_renderAlone_error answers (congrArg Prod.fst aloneEq)
    exact (congrArg Prod.snd aloneEq).symm.trans left
  · intro τ otherInvariant otherLoader other otherState changed otherSteady otherHolds
      sameLoads index page called apart unasked
    have otherEq := (yields_renderEach otherSteady config.includeLimit context calls
      otherState otherHolds).1.trans
        (renderEach_eq_map (fresh other) (fresh other) rfl config.includeLimit calls)
    rw [otherEq, outcomesEq, List.getElem?_map, List.getElem?_map, called]
    exact congrArg some (renderAlone_congr sameLoads config.includeLimit pages apart unasked)

/-- A loader of three pages and of one fragment, which counts its calls.  All pages invoke the
fragment, and the draft invokes a second one. -/
def countedSources (about : String) : Loader (StateM Nat) where
  load path := do
    modify (· + 1)
    return if path = "index.md" then .ok "\x7b\x7bmenu\x7d\x7d"
      else if path = "about.md" then .ok (about ++ " \x7b\x7bmenu\x7d\x7d")
      else if path = "draft.md" then .ok "\x7b\x7bmenu\x7d\x7d \x7b\x7bnote\x7d\x7d"
      else if path = "_menu.html" then .ok "Menu"
      else .error (.notFound path)
  loadBinary path := return .error (.notFound path)
  glob _ := return .ok ["about.md", "draft.md", "index.md"]

/-- The same sources without the count. -/
def plainSources (about : String) : Loader Id where
  load path := (((countedSources about).load path).run 0).1
  loadBinary path := (((countedSources about).loadBinary path).run 0).1
  glob pattern := (((countedSources about).glob pattern).run 0).1

theorem steady_countedSources (about : String) :
    (countedSources about).Steady (fun _ => True) (plainSources about) :=
  ⟨fun _ _ _ => ⟨rfl, trivial⟩, fun _ _ _ => ⟨rfl, trivial⟩, fun _ _ _ => ⟨rfl, trivial⟩⟩

/-- The draft fails for its second fragment, before and behind calls for other pages.  Of the
eight calls of the loader one is for the first fragment, which is kept; each page is loaded when
it is rendered, and the second fragment is asked for with each draft. -/
theorem renderEach_isolated_countedSources :
    let index := ofFileName "index.md"
    let about := ofFileName "about.md"
    let draft := ofFileName "draft.md"
    let context := RenderContext.ofPages [about, draft, index]
    let calls := [draft, index, about, draft, index]
    let outcomes := ((renderEach (countedSources "Us") 500 context calls).run 0).1
    ((countedSources "Us").Steady (fun _ => True) (plainSources "Us")) ∧
      (outcomes = calls.map fun page =>
        ((renderAlone (countedSources "Us") 500 context page).run 0).1) ∧
      outcomes.map (fun outcome => outcome.1.toOption.map RenderedPage.body) =
        [none, some "<p>Menu</p>\n", some "<p>Us Menu</p>\n", none, some "<p>Menu</p>\n"] ∧
      ((renderEach (countedSources "Us") 500 context calls).run 0).2 = 8 ∧
      (∃ error, outcomes[3]? = some (.error error, draft)) ∧
      ((renderEach (countedSources "Them") 500 context calls).run 3).1[4]? = outcomes[4]? := by
  intro index about draft context calls outcomes
  have isolated := renderEach_isolated (steady_countedSources "Us") 0 trivial {}
    [about, draft, index] calls
  have bodies : outcomes.map (fun outcome => outcome.1.toOption.map RenderedPage.body) =
      [none, some "<p>Menu</p>\n", some "<p>Us Menu</p>\n", none, some "<p>Menu</p>\n"] := by
    decide +kernel
  refine ⟨steady_countedSources "Us", isolated.1, bodies, by decide +kernel, ?_, ?_⟩
  · have noBody := congrArg (fun all => all[3]?) bodies
    rw [List.getElem?_map] at noBody
    obtain ⟨⟨answer, filled⟩, isOutcome, fails⟩ := Option.map_eq_some_iff.mp noBody
    cases answer with
    | ok rendered => cases fails
    | error error =>
        have left := isolated.2.1 3 draft filled error rfl isOutcome
        exact ⟨error, left ▸ isOutcome⟩
  · apply isolated.2.2 "about.md" (steady_countedSources "Them") trivial _ 4 index rfl
    · decide
    · intro asked
      obtain ⟨name, same⟩ := (uses_expandRounds _ _ _ _).of_mem_calls _ asked
      have first := congrArg (fun path => path.toList.head?) (Call.load.inj same)
      simp [fragmentPath] at first
    · intro path apart
      simp [plainSources, countedSources, apart]

end WikiPress.Page
