import WikiPress.Files.Tree
import WikiPress.Proofs.Files.PathParts

/-!
# Walking a tree

A tree has no links, so a walk that comes to an end has come to where the parts
resolve to.  A tree that only grows changes no walk that came to an end before, and a path
that has been made a directory leads to one.
-/

namespace WikiPress.Files.Tree

variable {tree : Tree} {workingDirectory : Place} {path : Path}

/-! ## Walks -/

/-- A walk takes a step if it stands at a directory and, where the part is a name,
something of that name lies there. -/
theorem walk_cons_eq_ok_iff {place result : Place} {part : String} {rest : List String} :
    tree.walk place (part :: rest) = .ok result ↔
      tree.isDirectory place = true ∧
        (part ≠ "." → part ≠ ".." → part.utf8ByteSize ≤ maxNameSize ∧
          (tree.node? (place ++ [part])).isSome = true) ∧
        tree.walk (Path.resolveStep place part) rest = .ok result := by
  rw [walk]
  unfold Path.resolveStep
  cases tree.isDirectory place with
  | false => simp
  | true =>
      by_cases here : part = "."
      · simp [here]
      · by_cases above : part = ".."
        · simp [above]
        · by_cases long : part.utf8ByteSize > maxNameSize
          · simp [here, above, long, Nat.not_le_of_gt long]
          · cases tree.node? (place ++ [part]) with
            | none => simp [here, above, long]
            | some _ => simp [here, above, long, Nat.le_of_not_gt long]

/-- A walk that comes to an end comes to where its parts resolve to. -/
theorem walk_eq_resolve {place result : Place} {named : List String}
    (walked : tree.walk place named = .ok result) : result = Path.resolve place named := by
  induction named generalizing place with
  | nil =>
      cases walked
      rfl
  | cons part named ih =>
      obtain ⟨_, _, rest⟩ := walk_cons_eq_ok_iff.mp walked
      exact ih rest

theorem walk_append_eq_ok_iff {place result : Place} {first second : List String} :
    tree.walk place (first ++ second) = .ok result ↔
      ∃ middle, tree.walk place first = .ok middle ∧ tree.walk middle second = .ok result := by
  induction first generalizing place with
  | nil => simp [walk]
  | cons part first ih =>
      simp only [List.cons_append, walk_cons_eq_ok_iff, ih, ← exists_and_left, and_assoc]

/-! ## Finding a path -/

theorem locate_eq_ok_iff {place : Place} :
    tree.locate workingDirectory path = .ok place ↔
      checkPath path = .ok () ∧
        tree.walk (startOf workingDirectory path) (Path.rawParts path) = .ok place ∧
        (Path.endsInSlash path = true → tree.isDirectory place = true) := by
  unfold locate
  cases checkPath path with
  | error error => simp [Bind.bind, Except.bind]
  | ok _ =>
      cases tree.walk (startOf workingDirectory path) (Path.rawParts path) with
      | error error => simp [Bind.bind, Except.bind]
      | ok found =>
          simp only [Bind.bind, Except.bind]
          split
          · rename_i refused
            simp only [Bool.and_eq_true, Bool.not_eq_true'] at refused
            constructor
            · intro impossible
              contradiction
            · rintro ⟨_, same, directory⟩
              cases same
              rw [directory refused.1] at refused
              cases refused.2
          · rename_i allowed
            simp only [Bool.and_eq_true, Bool.not_eq_true', not_and,
              Bool.not_eq_false] at allowed
            constructor
            · intro same
              cases same
              exact ⟨trivial, rfl, allowed⟩
            · rintro ⟨_, same, _⟩
              exact same

/-- A path leads to where its parts resolve to, if it leads anywhere. -/
theorem locate_eq_resolve {place : Place}
    (located : tree.locate workingDirectory path = .ok place) :
    place = Path.resolve (startOf workingDirectory path) (Path.parts path) := by
  rw [Path.resolve_parts]
  exact walk_eq_resolve (locate_eq_ok_iff.mp located).2.1

/-! ## Putting something into a tree -/

theorem lookup_filter (nodes : List (Place × Node)) (keep : Place → Bool) (place : Place) :
    (nodes.filter fun (kept, _) => keep kept).lookup place =
      if keep place = true then nodes.lookup place else none := by
  induction nodes with
  | nil => simp
  | cons entry nodes ih =>
      obtain ⟨key, node⟩ := entry
      by_cases kept : keep key = true
      · rw [List.filter_cons_of_pos (by simpa using kept), List.lookup_cons, ih, List.lookup_cons]
        by_cases here : place = key
        · subst here
          simp [kept]
        · rw [beq_false_of_ne here]
      · rw [List.filter_cons_of_neg (by simpa using kept), ih, List.lookup_cons]
        by_cases here : place = key
        · rw [here, if_neg kept, if_neg kept]
        · rw [beq_false_of_ne here]

/-- What was put at a place lies there, and all else lies where it was. -/
theorem node?_insert (tree : Tree) {place : Place} (node : Node) (below : place ≠ [])
    (other : Place) :
    (tree.insert place node).node? other =
      if other = place then some node else tree.node? other := by
  unfold node? insert erase
  by_cases root : other = []
  · have apart : other ≠ place := fun same => below (same.symm.trans root)
    rw [if_pos root, if_neg apart, if_pos root]
  · rw [if_neg root, if_neg root, List.lookup_append, lookup_filter _ (· != place)]
    by_cases same : other = place
    · simp [same]
    · have different : (other == place) = false := beq_false_of_ne same
      rw [if_pos (bne_iff_ne.mpr same), if_neg same, List.lookup_cons, different,
        List.lookup_nil, Option.or_none]

/-- What was put at a place lies there. -/
theorem node?_insert_self (tree : Tree) {place : Place} (node : Node) (below : place ≠ []) :
    (tree.insert place node).node? place = some node := by
  rw [node?_insert tree node below, if_pos rfl]

theorem isDirectory_iff {place : Place} :
    tree.isDirectory place = true ↔ tree.node? place = some .directory := by
  unfold isDirectory
  split
  · rename_i lies
    exact iff_of_true rfl lies
  · rename_i other
    exact iff_of_false Bool.false_ne_true other

/-! ## Trees that grow -/

/-- A later tree where all that lay there before still lies, and directories are still
directories. -/
structure Grows (before after : Tree) : Prop where
  present : ∀ place, (before.node? place).isSome = true → (after.node? place).isSome = true
  directory : ∀ place, before.isDirectory place = true → after.isDirectory place = true

namespace Grows

variable {before middle after : Tree}

theorem refl (tree : Tree) : Grows tree tree :=
  ⟨fun _ present => present, fun _ directory => directory⟩

theorem trans (first : Grows before middle) (second : Grows middle after) :
    Grows before after := by
  constructor
  · intro place present
    exact second.present place (first.present place present)
  · intro place directory
    exact second.directory place (first.directory place directory)

/-- A walk that came to an end still comes to it. -/
theorem walk (grows : Grows before after) {place result : Place} {named : List String}
    (walked : before.walk place named = .ok result) : after.walk place named = .ok result := by
  induction named generalizing place with
  | nil => exact walked
  | cons part named ih =>
      obtain ⟨directory, present, rest⟩ := walk_cons_eq_ok_iff.mp walked
      refine walk_cons_eq_ok_iff.mpr ⟨grows.directory place directory, ?_, ih rest⟩
      intro notHere notAbove
      obtain ⟨short, lies⟩ := present notHere notAbove
      exact ⟨short, grows.present _ lies⟩

theorem locate (grows : Grows before after) {place : Place}
    (located : before.locate workingDirectory path = .ok place) :
    after.locate workingDirectory path = .ok place := by
  obtain ⟨checked, walked, closed⟩ := locate_eq_ok_iff.mp located
  refine locate_eq_ok_iff.mpr ⟨checked, grows.walk walked, ?_⟩
  intro slash
  exact grows.directory place (closed slash)

end Grows

/-- A tree grows by what is put into it, if no directory is replaced by a file. -/
theorem grows_insert {target : Place} {node : Node} (below : target ≠ [])
    (keeps : tree.isDirectory target = true → node = .directory) :
    tree.Grows (tree.insert target node) := by
  constructor
  · intro place present
    rw [node?_insert tree node below]
    split
    · rfl
    · exact present
  · intro place directory
    rw [isDirectory_iff, node?_insert tree node below]
    split
    · rename_i here
      rw [keeps (here ▸ directory)]
    · exact isDirectory_iff.mp directory

/-! ## Making directories -/

/-- A place for something new is a directory to which all parts but the last lead. -/
theorem of_locateNew {place : Place} {name : String}
    (located : tree.locateNew workingDirectory path = .ok (place, name)) :
    checkPath path = .ok () ∧
      ∃ above, Path.rawParts path = above ++ [name] ∧
        tree.walk (startOf workingDirectory path) above = .ok place ∧
        tree.isDirectory place = true ∧ name ≠ "." ∧ name ≠ ".." ∧
        name.utf8ByteSize ≤ maxNameSize := by
  unfold locateNew at located
  cases checked : checkPath path with
  | error error =>
      rw [checked] at located
      contradiction
  | ok _ =>
      rw [checked] at located
      refine ⟨rfl, ?_⟩
      cases reversed : (Path.rawParts path).reverse with
      | nil =>
          rw [reversed] at located
          contradiction
      | cons last above =>
          have split : Path.rawParts path = above.reverse ++ [last] := by
            rw [← List.reverse_reverse (Path.rawParts path), reversed, List.reverse_cons]
          rw [reversed] at located
          cases walked : tree.walk (startOf workingDirectory path) above.reverse with
          | error error =>
              simp [walked, Bind.bind, Except.bind] at located
          | ok found =>
              simp only [walked, Bind.bind, Except.bind] at located
              split at located
              · contradiction
              · rename_i directory
                split at located
                · contradiction
                · rename_i ordinary
                  split at located
                  · contradiction
                  · rename_i short
                    cases located
                    simp only [Bool.or_eq_true, decide_eq_true_eq, not_or] at ordinary
                    exact ⟨above.reverse, split, walked, by simpa using directory, ordinary.1,
                      ordinary.2, Nat.le_of_not_gt short⟩

/-- Something new is put where its path leads when nothing is looked up. -/
theorem resolve_of_locateNew {place : Place} {name : String}
    (located : tree.locateNew workingDirectory path = .ok (place, name)) :
    Path.resolve (startOf workingDirectory path) (Path.parts path) = place ++ [name] := by
  obtain ⟨_, above, split, walked, _, notHere, notAbove, _⟩ := of_locateNew located
  rw [Path.resolve_parts, split, Path.resolve_append, ← walk_eq_resolve walked]
  change Path.resolveStep place name = place ++ [name]
  rw [Path.resolveStep, if_neg notHere, if_neg notAbove]

theorem isName_of_locateNew {place : Place} {name : String}
    (located : tree.locateNew workingDirectory path = .ok (place, name)) : Path.IsName name := by
  obtain ⟨_, above, split, _, _, notHere, notAbove, _⟩ := of_locateNew located
  have member : name ∈ Path.rawParts path := by simp [split]
  obtain ⟨nonempty, noSlash⟩ := Path.of_mem_rawParts member
  exact ⟨⟨nonempty, noSlash, notHere⟩, notAbove⟩

/-- A path that has been made a directory leads to one. -/
theorem isDirectory_of_makeDirectory {made : Tree}
    (succeeded : tree.makeDirectory workingDirectory path = .ok made) :
    ∃ place, made.locate workingDirectory path = .ok place ∧ made.isDirectory place = true := by
  unfold makeDirectory at succeeded
  cases located : tree.locateNew workingDirectory path with
  | error error =>
      rw [located] at succeeded
      contradiction
  | ok found =>
      obtain ⟨place, name⟩ := found
      obtain ⟨checked, above, split, walked, directory, notHere, notAbove, short⟩ :=
        of_locateNew located
      simp only [located, Bind.bind, Except.bind] at succeeded
      split at succeeded
      · contradiction
      · cases succeeded
        have below : place ++ [name] ≠ [] := by simp
        have grows : tree.Grows (tree.insert (place ++ [name]) .directory) :=
          grows_insert below fun _ => rfl
        have made := node?_insert_self tree .directory below
        have step : Path.resolveStep place name = place ++ [name] := by
          rw [Path.resolveStep, if_neg notHere, if_neg notAbove]
        refine ⟨place ++ [name], locate_eq_ok_iff.mpr ⟨checked, ?_, ?_⟩, isDirectory_iff.mpr made⟩
        · rw [split]
          refine walk_append_eq_ok_iff.mpr ⟨place, grows.walk walked, ?_⟩
          refine walk_cons_eq_ok_iff.mpr ⟨grows.directory place directory, ?_, ?_⟩
          · intro _ _
            rw [made]
            exact ⟨short, rfl⟩
          · rw [step]
            rfl
        · exact fun _ => isDirectory_iff.mpr made

/-- What a second action does, it does to the state that the first one left. -/
theorem run_bind_state {α β σ : Type} (action : StateM σ α) (following : α → StateM σ β)
    (state : σ) :
    (action >>= following).run state =
      (following (action.run state).1).run (action.run state).2 :=
  rfl

/-- An action that succeeds when its failures have been translated has succeeded. -/
theorem run_of_mapError {ε ε' α σ : Type} {action : StateM σ (Except ε α)} {translate : ε → ε'}
    {state after : σ} {value : α}
    (succeeded : (do
      let outcome ← action
      pure (outcome.mapError translate)).run state = (.ok value, after)) :
    action.run state = (.ok value, after) := by
  rw [run_bind_state] at succeeded
  generalize action.run state = outcome at succeeded ⊢
  rcases outcome with ⟨_ | result, last⟩
  · cases succeeded
  · cases succeeded
    rfl

/-- A path of which the system says that a directory lies there leads to one. -/
theorem isDirectory_of_run
    (directory : (((system workingDirectory).isDirectory path).run tree).1 = true) :
    ∃ place, tree.locate workingDirectory path = .ok place ∧ tree.isDirectory place = true := by
  have kind : tree.kind workingDirectory path = .ok .directory := by
    have asked : ((system workingDirectory).kind path).run tree =
        (tree.kind workingDirectory path, tree) := rfl
    unfold System.isDirectory at directory
    rw [run_bind_state, asked] at directory
    simp only [StateT.run_pure] at directory
    split at directory
    · assumption
    · cases directory
  unfold Tree.kind at kind
  cases located : tree.locate workingDirectory path with
  | error error =>
      rw [located] at kind
      cases kind
  | ok place =>
      rw [located] at kind
      refine ⟨place, rfl, ?_⟩
      have answer : (if tree.isDirectory place = true then Kind.directory else .file) =
          .directory := Except.ok.inj kind
      cases lies : tree.isDirectory place with
      | true => rfl
      | false =>
          rw [lies] at answer
          cases answer

theorem run_canonical (tree : Tree) (workingDirectory : Place) (path : Path) :
    ((system workingDirectory).canonical path).run tree =
      (tree.canonical workingDirectory path, tree) :=
  rfl

theorem run_workingDirectory (tree : Tree) (workingDirectory : Place) :
    (system workingDirectory).workingDirectory.run tree =
      (Path.ofParts workingDirectory, tree) :=
  rfl

theorem run_change_eq (tree : Tree) (step : Tree → Except FileError Tree) :
    (change step).run tree =
      match step tree with
      | .ok after => (.ok (), after)
      | .error error => (.error error, tree) := by
  unfold change
  rw [run_bind_state]
  simp only [StateT.run_get, pure]
  cases step tree <;> rfl

/-- A change of a tree is made, or it fails and leaves the tree as it was. -/
theorem run_change (tree : Tree) (step : Tree → Except FileError Tree) :
    (∃ after, step tree = .ok after ∧ (change step).run tree = (.ok (), after)) ∨
      ∃ error, (change step).run tree = (.error error, tree) := by
  rw [run_change_eq]
  cases step tree with
  | ok after => exact .inl ⟨after, rfl, rfl⟩
  | error error => exact .inr ⟨error, rfl⟩

theorem of_run_change {after : Tree} {step : Tree → Except FileError Tree}
    (succeeded : (change step).run tree = (.ok (), after)) : step tree = .ok after := by
  rcases run_change tree step with ⟨changed, stepEq, run⟩ | ⟨error, run⟩
  · rw [run] at succeeded
    cases succeeded
    exact stepEq
  · rw [run] at succeeded
    cases succeeded

/-- An attempt to make a directory that succeeds leaves one at the path. -/
theorem isDirectory_of_run_makeDirectory {made : Tree}
    (succeeded : ((system workingDirectory).makeDirectory path).run tree = (.ok (), made)) :
    ∃ place, made.locate workingDirectory path = .ok place ∧ made.isDirectory place = true :=
  isDirectory_of_makeDirectory (of_run_change succeeded)

/-- An attempt that failed is forgiven if a directory lies at the path. -/
theorem isDirectory_of_run_forgiven {made : Tree} {error : FileError}
    (succeeded : (do
      let directory ← (system workingDirectory).isDirectory path
      pure (if directory = true then Except.ok () else .error error)).run tree = (.ok (), made)) :
    ∃ place, made.locate workingDirectory path = .ok place ∧ made.isDirectory place = true := by
  rw [run_bind_state] at succeeded
  split at succeeded
  · rename_i directory
    cases succeeded
    exact isDirectory_of_run directory
  · cases succeeded

/-- When a directory has been made together with those above it, its path leads to a
directory. -/
theorem isDirectory_of_makeDirectories {made : Tree} (nonempty : path ≠ "")
    (succeeded : ((system workingDirectory).makeDirectories path).run tree = (.ok (), made)) :
    ∃ place, made.locate workingDirectory path = .ok place ∧ made.isDirectory place = true := by
  unfold System.makeDirectories System.makeDirectoryIn at succeeded
  rw [if_neg (by simpa using nonempty), run_bind_state] at succeeded
  split at succeeded
  · rename_i answer
    cases succeeded
    exact isDirectory_of_run_makeDirectory (Prod.ext answer rfl)
  · rw [run_bind_state] at succeeded
    split at succeeded
    · cases succeeded
    · rw [run_bind_state] at succeeded
      split at succeeded
      · rename_i answer
        cases succeeded
        exact isDirectory_of_run_makeDirectory (Prod.ext answer rfl)
      · exact isDirectory_of_run_forgiven succeeded
  · exact isDirectory_of_run_forgiven succeeded

end WikiPress.Files.Tree
