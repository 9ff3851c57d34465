import WikiPress.Proofs.Compilation.FileNames

/-!
# Clashes between pages

Discovery goes through the listed files in their order and stops at the first one whose page
has the id of a page before it.  So it finds a page for every file as soon as their ids are
distinct, and otherwise tells of the first file at which they are not.
-/

namespace WikiPress

open Files

namespace Page

/-- The id of the page of a file. -/
def idOf (path : Path) : String :=
  (ofFileName path).id

/-- The first clash in a list of files: up to the second file of the clash all ids are
distinct, and the first one is the only file before it that has its id. -/
structure FirstClash (paths : List Path) (clash : PageClash) : Prop where
  id_first : idOf clash.first = clash.id
  id_second : idOf clash.second = clash.id
  exists_split : ∃ earlier between later,
    paths = earlier ++ clash.first :: between ++ clash.second :: later ∧
      ((earlier ++ clash.first :: between).map idOf).Nodup ∧
      ∀ other ∈ earlier ++ between, idOf other ≠ clash.id

theorem FirstClash.not_nodup {paths : List Path} {clash : PageClash}
    (firstClash : FirstClash paths clash) : ¬ (paths.map idOf).Nodup := by
  obtain ⟨earlier, between, later, rfl, -, -⟩ := firstClash.exists_split
  intro distinct
  rw [List.map_append] at distinct
  have apart := (List.nodup_append.mp distinct).2.2
  refine apart (idOf clash.first) ?_ (idOf clash.second) List.mem_cons_self ?_
  · exact List.mem_map_of_mem (by simp)
  · rw [firstClash.id_first, firstClash.id_second]

/-- A file whose page has the id of one before it, where all ids are distinct so far, is the
second of the first clash. -/
theorem firstClash_of_mem {before after : List Path} {first second : Path}
    (distinct : (before.map idOf).Nodup) (member : first ∈ before)
    (same : idOf first = idOf second) :
    FirstClash (before ++ second :: after) { id := idOf second, first, second } := by
  obtain ⟨earlier, between, rfl⟩ := List.append_of_mem member
  refine ⟨same, rfl, earlier, between, after, rfl, distinct, fun other otherMember taken => ?_⟩
  have perm : (earlier ++ first :: between).Perm (first :: (earlier ++ between)) :=
    List.perm_middle
  have apart := (perm.map idOf).nodup_iff.mp distinct
  rw [List.map_cons, List.nodup_cons] at apart
  exact apart.1 (List.mem_map.mpr ⟨other, otherMember, taken.trans same.symm⟩)

/-- What discovery comes to behind files whose pages have distinct ids: a page for each file,
or the first clash. -/
theorem discoverFrom_cases {before paths : List Path} (distinct : (before.map idOf).Nodup) :
    (((before ++ paths).map idOf).Nodup ∧
        discoverFrom (before.map ofFileName) paths = .ok ((before ++ paths).map ofFileName)) ∨
      ∃ clash, FirstClash (before ++ paths) clash ∧
        discoverFrom (before.map ofFileName) paths = .error clash := by
  induction paths generalizing before with
  | nil =>
      rw [List.append_nil]
      exact .inl ⟨distinct, rfl⟩
  | cons path paths ih =>
      unfold discoverFrom
      simp only
      split
      · rename_i page found
        obtain ⟨first, member, rfl⟩ := List.mem_map.mp (List.mem_of_find?_eq_some found)
        have same := List.find?_some found
        rw [beq_iff_eq] at same
        exact .inr ⟨_, firstClash_of_mem distinct member same, rfl⟩
      · rename_i missing
        have new : idOf path ∉ before.map idOf := by
          intro taken
          obtain ⟨other, member, same⟩ := List.mem_map.mp taken
          exact List.find?_eq_none.mp missing (ofFileName other) (List.mem_map_of_mem member)
            (beq_iff_eq.mpr same)
        have stillDistinct : ((before ++ [path]).map idOf).Nodup := by
          rw [List.map_append, List.map_singleton, ← List.concat_eq_append, List.nodup_concat]
          exact ⟨new, distinct⟩
        rw [List.append_cons, ← List.map_singleton, ← List.map_append]
        exact ih stillDistinct

theorem discover_cases (paths : List Path) :
    ((paths.map idOf).Nodup ∧ discover paths = .ok (paths.map ofFileName)) ∨
      ∃ clash, FirstClash paths clash ∧ discover paths = .error clash :=
  @discoverFrom_cases [] paths List.nodup_nil

end Page

namespace Compilation

variable {σ : Type}

/-- With a loader that lists files for the pages of a site, pages are discovered just if the
files give them distinct ids.  Then there is one for each file, in their order, and no two
have one output file; otherwise the first clash is told.  Nothing but the list is asked for. -/
theorem discoverPages_rejects_clashes (loader : Loader (StateM σ)) (config : Config) (state : σ)
    {paths : List Path} (listed : ((loader.glob config.pages).run state).1 = .ok paths) :
    let discovered := (discoverPages loader config).run state
    ((∃ pages, discovered.1 = .ok pages) ↔ (paths.map Page.idOf).Nodup) ∧
      (∀ pages, discovered.1 = .ok pages →
        pages = paths.map Page.ofFileName ∧ (pages.map Page.outputPath).Nodup) ∧
      (∀ error, discovered.1 = .error error →
        ∃ clash, error = .duplicate clash ∧ Page.FirstClash paths clash) ∧
      discovered.2 = ((loader.glob config.pages).run state).2 := by
  intro discovered
  have asked : (loader.glob config.pages).run state =
      (.ok paths, ((loader.glob config.pages).run state).2) := Prod.ext listed rfl
  have ran : discovered = ((Page.discover paths).mapError CompileError.duplicate,
      ((loader.glob config.pages).run state).2) := by
    unfold discovered discoverPages
    rw [Tree.run_bind_state, asked]
    rfl
  rw [ran]
  rcases Page.discover_cases paths with ⟨distinct, found⟩ | ⟨clash, firstClash, failed⟩
  · rw [found]
    refine ⟨⟨fun _ => distinct, fun _ => ⟨_, rfl⟩⟩, ?_, nofun, rfl⟩
    rintro pages ⟨rfl⟩
    exact ⟨rfl, (Page.named_of_discover found).nodup_outputPath⟩
  · rw [failed]
    refine ⟨⟨nofun, fun distinct => absurd distinct firstClash.not_nodup⟩, nofun, ?_, rfl⟩
    rintro error ⟨rfl⟩
    exact ⟨clash, rfl, firstClash⟩

/-- A loader that lists files in several directories and counts the lists. -/
def scatteredNotes : Loader (StateM Nat) where
  load path := return .error (.notFound path)
  loadBinary path := return .error (.notFound path)
  glob _ := do
    modify (· + 1)
    return .ok ["notes/Set-up.md", "Front Page.md", "--.md", "old/front_page.txt", "set up.md",
      "§.md"]

/-- Of three clashes the first is told: two names in different directories and with different
extensions come to one id.  The names that come to no id at all clash later. -/
theorem discoverPages_rejects_clashes_scatteredNotes :
    let paths := ["notes/Set-up.md", "Front Page.md", "--.md", "old/front_page.txt", "set up.md",
      "§.md"]
    let clash : PageClash :=
      { id := "front-page", first := "Front Page.md", second := "old/front_page.txt" }
    ((scatteredNotes.glob "**/*").run 0).1 = .ok paths ∧
      (discoverPages scatteredNotes { pages := "**/*" }).run 0 = (.error (.duplicate clash), 1) ∧
      Page.FirstClash paths clash ∧ ¬ (paths.map Page.idOf).Nodup := by
  intro paths clash
  have listed : ((scatteredNotes.glob "**/*").run 0).1 = .ok paths := rfl
  have ran : (discoverPages scatteredNotes { pages := "**/*" }).run 0 =
      (.error (.duplicate clash), 1) := rfl
  obtain ⟨accepted, _, rejected, _⟩ :=
    discoverPages_rejects_clashes scatteredNotes { pages := "**/*" } 0 listed
  obtain ⟨_, ⟨rfl⟩, firstClash⟩ := rejected _ (congrArg Prod.fst ran)
  refine ⟨listed, ran, firstClash, fun distinct => ?_⟩
  obtain ⟨_, found⟩ := accepted.mpr distinct
  rw [ran] at found
  cases found

end Compilation

end WikiPress
