import WikiPress.Proofs.Call.Program

/-!
# Which calls the library makes

An expansion asks for fragments and for nothing else, and everything up to the
publication of an edition goes to the loader alone.
-/

namespace WikiPress

/-- A call that loads a fragment. -/
def Call.IsFragment (call : Call) : Prop :=
  ∃ name, call = load (Include.fragmentPath name)

/-- A call that goes to a loader. -/
def Call.IsRead (call : Call) : Prop :=
  call.isRead = true

theorem Call.IsFragment.isRead {call : Call} (isFragment : call.IsFragment) : call.IsRead := by
  obtain ⟨name, rfl⟩ := isFragment
  rfl

namespace Include

theorem uses_loadMissing (names : List String) (cache : Cache) :
    (loadMissing Program.loader names cache).Uses Call.IsFragment := by
  induction names generalizing cache with
  | nil => trivial
  | cons name names ih =>
      unfold loadMissing
      split
      · exact ih cache
      · apply Program.Uses.bind
        · exact ⟨⟨name, rfl⟩, fun _ => trivial⟩
        · rintro (error | fragment)
          · trivial
          · exact ih (cache.insert name fragment)

/-- Expanding a text asks for fragments only. -/
theorem uses_expandRounds (limit remaining : Nat) (cache : Cache) (text : String) :
    (expandRounds Program.loader limit remaining cache text).Uses Call.IsFragment := by
  induction remaining generalizing cache text with
  | zero => trivial
  | succ remaining ih =>
      simp only [expandRounds]
      split
      · trivial
      · apply Program.Uses.bind
        · exact uses_loadMissing (invokedNames text) cache
        · rintro ⟨error | _, loaded⟩
          · trivial
          · exact ih loaded (substitute loaded text)

end Include

theorem Page.uses_render (includeLimit : Nat) (context : RenderContext) (page : Page) :
    (page.render Program.loader includeLimit context).Uses Call.IsRead := by
  unfold Page.render
  apply Program.Uses.bind
  · exact ⟨rfl, fun _ => trivial⟩
  · rintro (error | source)
    · trivial
    · apply Program.Uses.bind
      · exact (Include.uses_expandRounds includeLimit includeLimit context.fragments source).mono
          fun _ => Call.IsFragment.isRead
      · rintro ⟨_ | _, _⟩ <;> trivial

namespace Compilation

theorem uses_discoverPages (config : Config) :
    (discoverPages Program.loader config).Uses Call.IsRead := by
  unfold discoverPages
  apply Program.Uses.bind
  · exact ⟨rfl, fun _ => trivial⟩
  · rintro (_ | _) <;> trivial

theorem uses_renderPages (includeLimit : Nat) (context : RenderContext) (pages : List Page) :
    (renderPages Program.loader includeLimit context pages).Uses Call.IsRead := by
  induction pages generalizing context with
  | nil => trivial
  | cons page pages ih =>
      unfold renderPages
      apply Program.Uses.bind
      · exact page.uses_render includeLimit context
      · rintro ⟨error | rendered, filled, context⟩
        · trivial
        · exact (ih context).bind fun _ => trivial

theorem uses_loadFiles (loaded : List (Files.Path × ByteArray)) (paths : List Files.Path) :
    (loadFiles Program.loader loaded paths).Uses Call.IsRead := by
  induction paths generalizing loaded with
  | nil => trivial
  | cons path paths ih =>
      unfold loadFiles
      split
      · exact ih loaded
      · apply Program.Uses.bind
        · exact ⟨rfl, fun _ => trivial⟩
        · rintro (error | content)
          · trivial
          · exact ih (loaded ++ [(path, content)])

theorem uses_loadMatches (loaded : List (Files.Path × ByteArray)) (patterns : List String) :
    (loadMatches Program.loader loaded patterns).Uses Call.IsRead := by
  induction patterns generalizing loaded with
  | nil => trivial
  | cons pattern patterns ih =>
      unfold loadMatches
      apply Program.Uses.bind
      · exact ⟨rfl, fun _ => trivial⟩
      · rintro (error | paths)
        · trivial
        · apply (uses_loadFiles loaded paths).bind
          rintro (error | loaded)
          · trivial
          · exact ih loaded

/-- Whatever is done up to an edition is done by a loader. -/
theorem uses_prepare (config : Config) (generatedAt : Moment) :
    (prepare Program.loader config generatedAt).Uses Call.IsRead := by
  unfold prepare
  apply Program.Uses.bind
  · exact ⟨rfl, fun _ => trivial⟩
  · rintro (error | template)
    · trivial
    · apply (uses_discoverPages config).bind
      rintro (error | pages)
      · trivial
      · apply (uses_renderPages config.includeLimit (RenderContext.ofPages pages) pages).bind
        rintro (error | rendered)
        · trivial
        · apply (uses_loadMatches [] config.assets).bind
          rintro (_ | _) <;> trivial

end Compilation

end WikiPress
