import WikiPress.Proofs.Call.Interpretation
import WikiPress.Proofs.Call.Recording
import WikiPress.Proofs.Compilation.Preparation
import WikiPress.Proofs.Include.Rounds
import WikiPress.Proofs.Pragma
import WikiPress.Proofs.Slug
import WikiPress.Proofs.Template

/-!
# Titles in templates

The title of a page is a slug, or stands in a text whose includes have been expanded.  Neither
has a marker in it: an expansion goes on until nothing in the text is written like an invocation,
and the markers of a template are.  So a title brings no marker into a template.
-/

namespace WikiPress

open Include

/-! ## Titles -/

@[simp]
theorem Page.title_withSource (page : Page) (source expanded : String) :
    (page.withSource source expanded).title =
      (Pragma.extract expanded).2.title.getD page.title := by
  unfold withSource
  rcases Pragma.extract expanded with ⟨text, pragmas⟩
  rfl

/-- A text without opening braces holds no invocation. -/
theorem Include.not_holdsInvocation_of_noBrace {text : String} (noBrace : '{' ∉ text.toList) :
    ¬ HoldsInvocation text := by
  rintro ⟨call, -, written⟩
  exact noBrace (written.subset List.mem_cons_self)

/-- The title that a page gets by its name. -/
theorem Page.not_holdsInvocation_ofFileName (path : String) :
    ¬ HoldsInvocation (Page.ofFileName path).title :=
  not_holdsInvocation_of_noBrace (Slug.not_mem_slugify rfl (by decide) _)

/-- A page that is rendered keeps a title without invocations, or gets one. -/
theorem Page.not_holdsInvocation_title {includeLimit : Nat} {context rest : RenderContext}
    {page filled : Page} {rendered : RenderedPage} {reads : List Event}
    (own : ¬ HoldsInvocation page.title)
    (run : (page.render Program.loader includeLimit context).Run reads
      (.ok rendered, filled, rest)) :
    ¬ HoldsInvocation filled.title := by
  obtain ⟨source, expanded, _, _, -, expandRun, rfl⟩ := steps_of_run_render run
  rw [page.title_withSource]
  cases found : (Pragma.extract expanded).2.title with
  | none => exact own
  | some title =>
      exact mt (HoldsInvocation.of_infix (Pragma.isInfix_title found))
        (not_holdsInvocation_of_run expandRun)

namespace Template

/-- A text with a mark holds an invocation. -/
theorem holdsInvocation_of_mark {text : String} {field : Field}
    (inside : field.mark.toList <:+: text.toList) : HoldsInvocation text := by
  refine ⟨⟨field.name.toList, none⟩, ⟨by cases field <;> decide, nofun⟩, ?_⟩
  rw [field.toList_mark] at inside
  exact inside

variable {σ : Type}

/-- Filling a template is one simultaneous substitution.  In a template of marks and of literal
texts that have no part in a mark, each mark becomes the value of its field, for every title
without an opening brace, every body and every time, and nothing else changes.  Titles do not
bring marks into a template: no name of a file leads to a title with an invocation in it, and
if a page with a title without one is rendered, then, whatever was loaded, so is the title that
it has afterwards; hence no mark of a template stands in it. -/
theorem filled_simultaneously (loader : Loader (StateM σ)) (state : σ) :
    (∀ (pieces : List Piece) (title body : String) (generatedAt : Moment),
      '{' ∉ title.toList →
      fill (String.join (pieces.map Piece.text)) title body generatedAt =
        String.join (pieces.map (Piece.filled (Field.value title body generatedAt)))) ∧
    (∀ path, ¬ HoldsInvocation (Page.ofFileName path).title) ∧
    ∀ (includeLimit : Nat) (context rest : RenderContext) (page filled : Page)
      (rendered : RenderedPage), ¬ HoldsInvocation page.title →
      ((page.render loader includeLimit context).run state).1 = (.ok rendered, filled, rest) →
      ¬ HoldsInvocation filled.title ∧
        ∀ field : Field, ¬ field.mark.toList <:+: filled.title.toList := by
  refine ⟨fun pieces title body generatedAt noBrace => fill_pieces pieces noBrace body generatedAt,
    Page.not_holdsInvocation_ofFileName, ?_⟩
  intro includeLimit context rest page filled rendered own outcome
  obtain ⟨reads, run, -⟩ := Program.interpret_recorded (Handler.of loader Saver.idle)
    (page.render Program.loader includeLimit context) [] state
  rw [Page.interpret_render, outcome] at run
  have noInvocation := Page.not_holdsInvocation_title own run
  exact ⟨noInvocation, fun field inside => noInvocation (holdsInvocation_of_mark inside)⟩

/-- A page that names the site in its title by a fragment; the state counts calls. -/
def siteNotes : Loader (StateM Nat) where
  load path := do
    modify (· + 1)
    return if path = "Home Page.md" then .ok "#title \x7b\x7bsite\x7d\x7d notes\n\nHi\n"
      else if path = "_site.html" then .ok "Wiki" else .error (.notFound path)
  loadBinary path := return .error (.notFound path)
  glob _ := return .ok ["Home Page.md"]

theorem filled_simultaneously_siteNotes :
    let page := Page.ofFileName "Home Page.md"
    let context := RenderContext.ofPages [page]
    let outcome := ((page.render siteNotes 500 context).run 0).1
    let heading : Literal := .ofNoBrace "<h1>Wiki" (by decide)
    let pieces : List Piece :=
      [.literal heading, .mark .prefixedTitle, .mark .body, .mark .generateDate, .mark .title]
    page.title = "home-page" ∧ outcome.2.1.title = "Wiki notes" ∧
      ¬ HoldsInvocation outcome.2.1.title ∧
      '{' ∉ outcome.2.1.title.toList ∧
      fill (String.join (pieces.map Piece.text)) outcome.2.1.title "\x7b\x7btitle\x7d\x7d" ⟨0⟩ =
        "<h1>Wiki - Wiki notes\x7b\x7btitle\x7d\x7dThu, 01 Jan 1970 00:00:00 GMTWiki notes" := by
  intro page context outcome heading pieces
  obtain ⟨fills, ofFileName, ofPage⟩ := filled_simultaneously siteNotes 0
  have title : outcome.2.1.title = "Wiki notes" := by decide +kernel
  have accepted : ∃ rendered, outcome.1 = .ok rendered := by
    cases ended : outcome.1 with
    | ok rendered => exact ⟨rendered, rfl⟩
    | error error =>
        have succeeded : outcome.1.isOk = true := by decide +kernel
        rw [ended] at succeeded
        cases succeeded
  obtain ⟨rendered, isRendered⟩ := accepted
  have outcomeEq : outcome = (.ok rendered, outcome.2.1, outcome.2.2) := by
    rw [← isRendered]
  have noBrace : '{' ∉ outcome.2.1.title.toList := by
    rw [title]
    decide
  refine ⟨by decide +kernel, title, ?_, noBrace, ?_⟩
  · exact (ofPage 500 context _ page _ rendered (ofFileName "Home Page.md") outcomeEq).1
  · rw [fills pieces _ "\x7b\x7btitle\x7d\x7d" ⟨0⟩ noBrace, title]
    decide +kernel

end Template

end WikiPress
