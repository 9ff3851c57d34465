import Mathlib.Logic.Function.Basic
import WikiPress.Proofs.Files.TreeWalk

/-!
# The files of a tree

What a tree holds is told by the files at its places.  Making directories touches none of
them, writing puts one file at the place where its path leads, and removing a directory
takes away those that lie below it.
-/

namespace WikiPress.Files.Tree

variable {tree : Tree} {workingDirectory : Place} {path : Path}

/-- The content of the file at a place. -/
def file? (tree : Tree) (place : Place) : Option ByteArray :=
  match tree.node? place with
  | some (.file content) => some content
  | _ => none

theorem file?_eq_none_of_isDirectory {place : Place} (directory : tree.isDirectory place = true) :
    tree.file? place = none := by
  unfold file?
  rw [isDirectory_iff.mp directory]

theorem isSome_of_file? {place : Place} {content : ByteArray}
    (lies : tree.file? place = some content) : (tree.node? place).isSome = true := by
  unfold file? at lies
  split at lies
  · rename_i found
    rw [found]
    rfl
  · cases lies

/-! ## Changes -/

theorem file?_insert_directory {target : Place} (new : tree.node? target = none) :
    (tree.insert target .directory).file? = tree.file? := by
  have below : target ≠ [] := by
    rintro rfl
    cases new
  funext place
  unfold file?
  rw [node?_insert tree .directory below]
  by_cases here : place = target
  · rw [if_pos here, here, new]
  · rw [if_neg here]

theorem file?_insert_file (tree : Tree) {target : Place} (below : target ≠ [])
    (content : ByteArray) :
    (tree.insert target (.file content)).file? =
      Function.update tree.file? target (some content) := by
  funext place
  unfold file?
  rw [node?_insert tree (.file content) below]
  by_cases here : place = target
  · rw [if_pos here, here, Function.update_self]
  · rw [if_neg here, Function.update_of_ne here]

theorem node?_eraseBelow (tree : Tree) (place : Place) {other : Place} (below : other ≠ []) :
    (tree.eraseBelow place).node? other = if place <+: other then none else tree.node? other := by
  have kept := lookup_filter tree.nodes (fun other => !place.isPrefixOf other) other
  refine (if_neg below).trans (kept.trans ?_)
  rw [node?, if_neg below]
  by_cases erased : place <+: other
  · have isPrefix := List.isPrefixOf_iff_prefix.mpr erased
    rw [if_pos erased, if_neg (by simp [isPrefix])]
  · have notPrefix : place.isPrefixOf other = false :=
      Bool.eq_false_iff.mpr fun isPrefix => erased (List.isPrefixOf_iff_prefix.mp isPrefix)
    rw [if_neg erased, if_pos (by simp [notPrefix])]

/-- The files below a place that is erased are gone, and all others are where they were. -/
@[simp]
theorem file?_eraseBelow (tree : Tree) (place other : Place) :
    (tree.eraseBelow place).file? other = if place <+: other then none else tree.file? other := by
  by_cases below : other = []
  · rw [below, file?_eq_none_of_isDirectory rfl, file?_eq_none_of_isDirectory rfl, ite_self]
  · unfold file?
    rw [node?_eraseBelow tree place below]
    by_cases erased : place <+: other
    · rw [if_pos erased, if_pos erased]
    · rw [if_neg erased, if_neg erased]

/-! ## Making directories -/

/-- A later tree that differs by directories only. -/
structure GainsDirectories (before after : Tree) : Prop extends Grows before after where
  file?_eq : after.file? = before.file?

theorem GainsDirectories.refl (tree : Tree) : GainsDirectories tree tree :=
  ⟨Grows.refl tree, rfl⟩

theorem GainsDirectories.trans {before middle after : Tree}
    (first : GainsDirectories before middle) (second : GainsDirectories middle after) :
    GainsDirectories before after :=
  ⟨first.toGrows.trans second.toGrows, second.file?_eq.trans first.file?_eq⟩

/-- A directory that is made is put where nothing lay. -/
theorem exists_insert_of_makeDirectory {made : Tree}
    (succeeded : tree.makeDirectory workingDirectory path = .ok made) :
    ∃ place name, tree.locateNew workingDirectory path = .ok (place, name) ∧
      tree.node? (place ++ [name]) = none ∧ made = tree.insert (place ++ [name]) .directory := by
  unfold makeDirectory at succeeded
  cases located : tree.locateNew workingDirectory path with
  | error error =>
      rw [located] at succeeded
      contradiction
  | ok found =>
      obtain ⟨place, name⟩ := found
      simp only [located, Bind.bind, Except.bind] at succeeded
      split at succeeded
      · contradiction
      · rename_i absent
        cases succeeded
        exact ⟨place, name, rfl, by simpa using absent, rfl⟩

theorem gains_of_makeDirectory {made : Tree}
    (succeeded : tree.makeDirectory workingDirectory path = .ok made) :
    tree.GainsDirectories made := by
  obtain ⟨place, name, _, new, rfl⟩ := exists_insert_of_makeDirectory succeeded
  exact ⟨grows_insert (by simp) fun _ => rfl, file?_insert_directory new⟩

/-- An action that does nothing to a tree but make directories. -/
def OnlyMakes {α : Type} (action : StateM Tree α) : Prop :=
  ∀ tree : Tree, tree.GainsDirectories (action.run tree).2

theorem onlyMakes_pure {α : Type} (value : α) : OnlyMakes (pure value) :=
  GainsDirectories.refl

theorem OnlyMakes.bind {α β : Type} {action : StateM Tree α} {following : α → StateM Tree β}
    (first : OnlyMakes action) (rest : ∀ value, OnlyMakes (following value)) :
    OnlyMakes (action >>= following) := by
  intro tree
  rw [run_bind_state]
  exact (first tree).trans (rest _ _)

theorem onlyMakes_change {step : Tree → Except FileError Tree}
    (gains : ∀ tree made, step tree = .ok made → tree.GainsDirectories made) :
    OnlyMakes (change step) := by
  intro tree
  rcases run_change tree step with ⟨made, makes, run⟩ | ⟨error, run⟩
  · rw [run]
    exact gains tree made makes
  · rw [run]
    exact GainsDirectories.refl tree

theorem onlyMakes_makeDirectory (workingDirectory : Place) (path : Path) :
    OnlyMakes ((system workingDirectory).makeDirectory path) :=
  onlyMakes_change fun _ _ => gains_of_makeDirectory

theorem onlyMakes_isDirectory (workingDirectory : Place) (path : Path) :
    OnlyMakes ((system workingDirectory).isDirectory path) :=
  GainsDirectories.refl

/-- A property of actions that single answers have, and chains of actions that have it. -/
structure Composes (holds : {α : Type} → StateM Tree α → Prop) : Prop where
  answer : ∀ {α : Type} (value : α), holds (pure value : StateM Tree α)
  chain : ∀ {α β : Type} {action : StateM Tree α} {following : α → StateM Tree β},
    holds action → (∀ value, holds (following value)) → holds (action >>= following)

/-- Making directories is made of looking for one and of making a single one. -/
theorem Composes.makeDirectoryIn {holds : {α : Type} → StateM Tree α → Prop}
    (composes : Composes holds) {paths : List Path}
    (looks : ∀ path ∈ paths, holds ((system workingDirectory).isDirectory path))
    (makes : ∀ path ∈ paths, holds ((system workingDirectory).makeDirectory path)) :
    holds ((system workingDirectory).makeDirectoryIn paths) := by
  induction paths with
  | nil => exact composes.answer _
  | cons path above ih =>
      obtain ⟨looksHere, looksAbove⟩ := List.forall_mem_cons.mp looks
      obtain ⟨made, makesAbove⟩ := List.forall_mem_cons.mp makes
      have forgiven (error : FileError) : holds (do
          let directory ← (system workingDirectory).isDirectory path
          pure (if directory = true then Except.ok () else .error error)) :=
        composes.chain looksHere fun _ => composes.answer _
      unfold System.makeDirectoryIn
      split
      · exact composes.answer _
      · apply composes.chain made
        rintro (error | _)
        · cases error with
          | notFound =>
              apply composes.chain (ih looksAbove makesAbove)
              rintro (error | _)
              · exact composes.answer _
              · apply composes.chain made
                rintro (error | _)
                · exact forgiven error
                · exact composes.answer _
          | _ => exact forgiven _
        · exact composes.answer _

theorem composes_onlyMakes : Composes OnlyMakes :=
  ⟨onlyMakes_pure, OnlyMakes.bind⟩

theorem onlyMakes_makeDirectories (workingDirectory : Place) (path : Path) :
    OnlyMakes ((system workingDirectory).makeDirectories path) :=
  composes_onlyMakes.makeDirectoryIn (fun _ _ => onlyMakes_isDirectory _ _)
    fun _ _ => onlyMakes_makeDirectory _ _

/-! ## Writing -/

/-- A file that is written is put where no directory lay. -/
theorem exists_insert_of_write {content : ByteArray} {written : Tree}
    (succeeded : tree.write workingDirectory path content = .ok written) :
    ∃ place name, tree.locateNew workingDirectory path = .ok (place, name) ∧
      tree.isDirectory (place ++ [name]) = false ∧
      written = tree.insert (place ++ [name]) (.file content) := by
  unfold write at succeeded
  cases located : tree.locateNew workingDirectory path with
  | error error =>
      rw [located] at succeeded
      cases error <;> cases succeeded
  | ok found =>
      obtain ⟨place, name⟩ := found
      rw [located] at succeeded
      simp only at succeeded
      split at succeeded
      · cases succeeded
      · rename_i allowed
        rw [Bool.or_eq_true, not_or] at allowed
        cases succeeded
        exact ⟨place, name, rfl, by simpa using allowed.2, rfl⟩

/-- A file that is written lies where its path leads when nothing is looked up. -/
theorem of_write {content : ByteArray} {written : Tree}
    (succeeded : tree.write workingDirectory path content = .ok written) :
    tree.Grows written ∧
      written.file? = Function.update tree.file?
        (Path.resolve (startOf workingDirectory path) (Path.parts path)) (some content) := by
  obtain ⟨place, name, located, noDirectory, rfl⟩ := exists_insert_of_write succeeded
  have below : place ++ [name] ≠ [] := by simp
  rw [resolve_of_locateNew located]
  refine ⟨grows_insert below fun directory => ?_, file?_insert_file tree below content⟩
  rw [noDirectory] at directory
  cases directory

/-! ## Removing -/

theorem of_removeDirectory {removed : Tree}
    (succeeded : tree.removeDirectory workingDirectory path = .ok removed) :
    ∃ place, tree.locate workingDirectory path = .ok place ∧
      tree.isDirectory place = true ∧ removed = tree.eraseBelow place := by
  unfold removeDirectory at succeeded
  cases located : tree.locate workingDirectory path with
  | error error =>
      rw [located] at succeeded
      cases succeeded
  | ok place =>
      rw [located] at succeeded
      simp only [Bind.bind, Except.bind] at succeeded
      split at succeeded
      · cases succeeded
      · rename_i directory
        cases succeeded
        exact ⟨place, rfl, by simpa using directory, rfl⟩

/-! ## Names -/

/-- All that lies in a tree has a name that can stand in a path. -/
def HasNames (tree : Tree) : Prop :=
  ∀ entry ∈ tree.nodes, ∀ name ∈ entry.1, Path.IsName name

instance (tree : Tree) : Decidable tree.HasNames :=
  inferInstanceAs (Decidable (∀ entry ∈ tree.nodes, ∀ name ∈ entry.1, Path.IsName name))

theorem HasNames.isName_of_mem_filesBelow (hasNames : tree.HasNames) {names : List String}
    (member : names ∈ tree.filesBelow workingDirectory path) :
    ∀ name ∈ names, Path.IsName name := by
  unfold filesBelow at member
  split at member
  · cases member
  · split at member
    · rw [List.mem_singleton.mp member]
      exact nofun
    · obtain ⟨⟨found, node⟩, below, kept⟩ := List.mem_filterMap.mp member
      obtain ⟨⟨place, other⟩, lies, dropped⟩ := List.mem_filterMap.mp below
      cases node with
      | directory => cases kept
      | file content =>
          cases kept
          simp only at dropped
          split at dropped
          · cases dropped
            intro name nameMember
            exact hasNames _ lies name ((List.drop_sublist _ place).mem nameMember)
          · cases dropped

end WikiPress.Files.Tree
