import Mathlib.Algebra.Order.BigOperators.Group.List
import Mathlib.Algebra.Order.Group.Nat
import Mathlib.Algebra.GroupWithZero.Nat
import WikiPress.Proofs.Files.FileTrees

/-!
# Visits to the files of a tree

A visit goes through a tree depth first, in each directory through the names in their order,
and turns away from every entry that it is told not to enter.  With such an entry all that
lies below it is left out, so a file is come to just if it and everything above it, up to where
the visit begins, may be entered.
-/

namespace WikiPress.Files.Tree

variable {tree : Tree} {workingDirectory place : Place} {path : Path}

/-- The names of what lies directly in the directory at a place, in their order. -/
def entryNames (tree : Tree) (place : Place) : List String :=
  ((tree.below place).filterMap fun
    | ([name], _) => some name
    | _ => none).mergeSort fun left right => decide (left ≤ right)

/-- A bound on how deep anything lies. -/
def extent (tree : Tree) : Nat :=
  (tree.nodes.map fun entry => entry.1.length).sum

theorem mem_entryNames_iff {name : String} :
    name ∈ tree.entryNames place ↔ ∃ node, (place ++ [name], node) ∈ tree.nodes := by
  unfold entryNames
  rw [List.mem_mergeSort, List.mem_filterMap]
  constructor
  · rintro ⟨⟨names, node⟩, below, shown⟩
    split at shown
    · rename_i same
      cases same
      cases shown
      exact ⟨node, (IsFileTree.mem_below_iff.mp below).2⟩
    · cases shown
  · rintro ⟨node, lies⟩
    exact ⟨([name], node), IsFileTree.mem_below_iff.mpr ⟨by simp, lies⟩, rfl⟩

theorem length_lt_extent {name : String} (member : name ∈ tree.entryNames place) :
    place.length < tree.extent := by
  obtain ⟨node, lies⟩ := mem_entryNames_iff.mp member
  have bound := List.le_sum_of_mem (List.mem_map_of_mem (f := fun entry => entry.1.length) lies)
  rw [List.length_append, List.length_singleton] at bound
  exact bound

/-- The files that a visit comes to that begins at names below a place. -/
def visit (tree : Tree) (place : Place) (enters : List String → Bool) (names : List String) :
    List (List String) :=
  if enters names then
    match tree.node? (place ++ names) with
    | none => []
    | some (.file _) => [names]
    | some .directory =>
      (tree.entryNames (place ++ names)).attach.flatMap fun ⟨name, _member⟩ =>
        visit tree place enters (names ++ [name])
  else
    []
termination_by tree.extent - (place ++ names).length
decreasing_by
  have bound := length_lt_extent _member
  simp only [List.length_append, List.length_singleton] at bound ⊢
  omega

/-- What lies between names and further ones that begin with them is the names themselves, or
lies at or below the next one. -/
theorem prefix_cases {names above rest : List String} {name : String} (begins : names <+: above)
    (within : above <+: names ++ name :: rest) : above = names ∨ names ++ [name] <+: above := by
  obtain ⟨more, rfl⟩ := begins
  cases more with
  | nil => exact .inl (List.append_nil names)
  | cons first more =>
      obtain ⟨rfl, -⟩ := List.cons_prefix_cons.mp ((List.prefix_append_right_inj names).mp within)
      exact .inr ⟨more, by simp⟩

/-- A visit comes to the files of which it may enter everything on the way. -/
theorem IsFileTree.mem_visit_iff (fileTree : tree.IsFileTree) {enters : List String → Bool}
    {names found : List String} :
    found ∈ tree.visit place enters names ↔
      names <+: found ∧ (∃ content, tree.file? (place ++ found) = some content) ∧
        ∀ above, names <+: above → above <+: found → enters above = true := by
  induction names using visit.induct tree place enters with
  | case1 names entered missing =>
      rw [visit, if_pos entered, missing]
      refine iff_of_false List.not_mem_nil ?_
      rintro ⟨begins, ⟨content, lies⟩, -⟩
      have present := fileTree.isSome_of_prefix ((List.prefix_append_right_inj place).mpr begins)
        (isSome_of_file? lies)
      rw [missing] at present
      cases present
  | case2 names entered content lies =>
      rw [visit, if_pos entered, lies]
      simp only
      rw [List.mem_singleton]
      constructor
      · rintro rfl
        refine ⟨List.prefix_rfl, ⟨content, by rw [file?, lies]⟩, fun above begins within => ?_⟩
        rw [within.eq_of_length_le begins.length_le]
        exact entered
      · rintro ⟨⟨rest, rfl⟩, ⟨other, otherLies⟩, -⟩
        by_cases isLast : rest = []
        · rw [isLast, List.append_nil]
        · -- Nothing lies below a file.
          rw [← List.append_assoc] at otherLies
          have directory := fileTree.isDirectory_of_append (isSome_of_file? otherLies) isLast
          rw [isDirectory_iff, lies] at directory
          cases directory
  | case3 names entered directory ih =>
      have isDirectory := isDirectory_iff.mpr directory
      rw [visit, if_pos entered, directory]
      simp only [List.flatMap_subtype, List.unattach_attach]
      rw [List.mem_flatMap]
      constructor
      · rintro ⟨name, member, visited⟩
        obtain ⟨begins, lies, allEntered⟩ := (ih name member).mp visited
        refine ⟨(List.prefix_append names [name]).trans begins, lies, fun above from' within => ?_⟩
        obtain ⟨rest, rfl⟩ := begins
        rw [List.append_assoc] at within
        rcases prefix_cases from' within with rfl | later
        · exact entered
        · exact allEntered above later (by rwa [List.append_assoc])
      · rintro ⟨⟨rest, rfl⟩, ⟨content, lies⟩, allEntered⟩
        cases rest with
        | nil =>
            rw [List.append_nil, file?_eq_none_of_isDirectory isDirectory] at lies
            cases lies
        | cons name rest =>
            have split : names ++ name :: rest = names ++ [name] ++ rest := by simp
            have present : (tree.node? (place ++ names ++ [name])).isSome = true := by
              refine fileTree.isSome_of_prefix ?_ (isSome_of_file? lies)
              rw [split]
              simp
            have member : name ∈ tree.entryNames (place ++ names) :=
              mem_entryNames_iff.mpr (fileTree.mem_nodes (by simp) present)
            refine ⟨name, member, (ih name member).mpr ⟨⟨rest, split.symm⟩, ⟨content, lies⟩, ?_⟩⟩
            exact fun above begins => allEntered above
              ((List.prefix_append names [name]).trans begins)
  | case4 names turnedAway =>
      rw [visit, if_neg turnedAway]
      refine iff_of_false List.not_mem_nil fun ⟨begins, _, allEntered⟩ => ?_
      exact turnedAway (allEntered names List.prefix_rfl begins)

/-- What lies below a path is told by the place that it leads to, also if that is a file. -/
theorem IsFileTree.mem_filesBelow_iff_of_locate (fileTree : tree.IsFileTree) {names : List String}
    (located : tree.locate workingDirectory path = .ok place) :
    names ∈ tree.filesBelow workingDirectory path ↔
      ∃ content, tree.file? (place ++ names) = some content := by
  by_cases directory : tree.isDirectory place = true
  · exact fileTree.mem_filesBelow_iff located directory
  · have onlyHere {names : List String} (lies : (tree.node? (place ++ names)).isSome = true) :
        names = [] := by
      by_contra strictly
      exact directory (fileTree.isDirectory_of_append lies strictly)
    have noneBelow : tree.below place = [] := by
      rw [List.eq_nil_iff_forall_not_mem]
      rintro ⟨names, node⟩ member
      obtain ⟨nonempty, lies⟩ := mem_below_iff.mp member
      refine nonempty (onlyHere ?_)
      rw [(fileTree.node?_eq_some_iff (by simp [nonempty])).mpr lies]
      rfl
    unfold filesBelow
    simp only [located, noneBelow, List.filterMap_nil]
    cases lies : tree.node? place with
    | none =>
        refine iff_of_false List.not_mem_nil ?_
        rintro ⟨content, found⟩
        have here := isSome_of_file? found
        rw [onlyHere here, List.append_nil, lies] at here
        cases here
    | some node =>
        cases node with
        | directory => exact absurd (isDirectory_iff.mpr lies) directory
        | file content =>
            simp only [List.mem_singleton]
            constructor
            · rintro rfl
              exact ⟨content, by rw [List.append_nil, file?, lies]⟩
            · rintro ⟨other, found⟩
              exact onlyHere (isSome_of_file? found)

end WikiPress.Files.Tree
