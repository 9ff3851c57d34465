import Mathlib.Data.List.Induction
import Mathlib.Data.List.Nodup
import WikiPress.Proofs.Files.SameNodes

/-!
# Trees of files

In a tree as a file system holds it every place is listed once, and what lies somewhere lies
in a directory.  There what can be found is just what is listed, and all changes keep it
that way.
-/

namespace WikiPress.Files.Tree

variable {tree : Tree} {workingDirectory : Place} {path : Path}

/-- Places are listed once, with names that can stand in a path and that a directory takes,
and each lies in a directory. -/
structure IsFileTree (tree : Tree) : Prop where
  distinct : (tree.nodes.map Prod.fst).Nodup
  named : tree.HasNames
  short : ∀ entry ∈ tree.nodes, ∀ name ∈ entry.1, name.utf8ByteSize ≤ maxNameSize
  inDirectory : ∀ entry ∈ tree.nodes, tree.isDirectory entry.1.dropLast = true

instance (tree : Tree) : Decidable tree.IsFileTree :=
  decidable_of_iff
    ((tree.nodes.map Prod.fst).Nodup ∧ tree.HasNames ∧
      (∀ entry ∈ tree.nodes, ∀ name ∈ entry.1, name.utf8ByteSize ≤ maxNameSize) ∧
      ∀ entry ∈ tree.nodes, tree.isDirectory entry.1.dropLast = true)
    ⟨fun parts => ⟨parts.1, parts.2.1, parts.2.2.1, parts.2.2.2⟩,
      fun fileTree => ⟨fileTree.distinct, fileTree.named, fileTree.short, fileTree.inDirectory⟩⟩

/-! ## Nodes -/

theorem lookup_eq_some_iff {nodes : List (Place × Node)} (distinct : (nodes.map Prod.fst).Nodup)
    {place : Place} {node : Node} : nodes.lookup place = some node ↔ (place, node) ∈ nodes := by
  induction nodes with
  | nil => simp
  | cons entry nodes ih =>
      obtain ⟨key, value⟩ := entry
      obtain ⟨new, others⟩ := List.nodup_cons.mp distinct
      rw [List.lookup_cons]
      by_cases here : place = key
      · have notLater : (key, node) ∉ nodes := fun later =>
          new (List.mem_map.mpr ⟨(key, node), later, rfl⟩)
        rw [here]
        simp [notLater, eq_comm]
      · simp only [beq_false_of_ne here, List.mem_cons, Prod.mk.injEq, here, false_and, false_or]
        exact ih others

namespace IsFileTree

theorem node?_eq_some_iff (fileTree : tree.IsFileTree) {place : Place} (below : place ≠ [])
    {node : Node} : tree.node? place = some node ↔ (place, node) ∈ tree.nodes := by
  unfold node?
  rw [if_neg below]
  exact lookup_eq_some_iff fileTree.distinct

theorem mem_nodes (fileTree : tree.IsFileTree) {place : Place} (below : place ≠ [])
    (lies : (tree.node? place).isSome = true) : ∃ node, (place, node) ∈ tree.nodes := by
  obtain ⟨node, nodeEq⟩ := Option.isSome_iff_exists.mp lies
  exact ⟨node, (fileTree.node?_eq_some_iff below).mp nodeEq⟩

/-- What lies somewhere lies in a directory. -/
theorem isDirectory_dropLast (fileTree : tree.IsFileTree) {place : Place}
    (lies : (tree.node? place).isSome = true) : tree.isDirectory place.dropLast = true := by
  by_cases below : place = []
  · subst below
    rfl
  · obtain ⟨node, member⟩ := fileTree.mem_nodes below lies
    exact fileTree.inDirectory _ member

/-- Above what lies somewhere there are directories. -/
theorem isDirectory_of_append (fileTree : tree.IsFileTree) {above names : Place}
    (lies : (tree.node? (above ++ names)).isSome = true) (strictly : names ≠ []) :
    tree.isDirectory above = true := by
  induction names using List.reverseRecOn with
  | nil => exact absurd rfl strictly
  | append_singleton names name ih =>
      rw [← List.append_assoc] at lies
      have directory := fileTree.isDirectory_dropLast lies
      rw [List.dropLast_concat] at directory
      by_cases last : names = []
      · rwa [last, List.append_nil] at directory
      · apply ih _ last
        rw [isDirectory_iff.mp directory]
        rfl

theorem isSome_of_prefix (fileTree : tree.IsFileTree) {above place : Place}
    (isPrefix : above <+: place) (lies : (tree.node? place).isSome = true) :
    (tree.node? above).isSome = true := by
  obtain ⟨names, rfl⟩ := isPrefix
  by_cases same : names = []
  · rwa [same, List.append_nil] at lies
  · rw [isDirectory_iff.mp (fileTree.isDirectory_of_append lies same)]
    rfl

theorem isDirectory_of_prefix (fileTree : tree.IsFileTree) {above place : Place}
    (isPrefix : above <+: place) (directory : tree.isDirectory place = true) :
    tree.isDirectory above = true := by
  obtain ⟨names, rfl⟩ := isPrefix
  by_cases same : names = []
  · rwa [same, List.append_nil] at directory
  · refine fileTree.isDirectory_of_append ?_ same
    rw [isDirectory_iff.mp directory]
    rfl

/-! ## Walks -/

/-- Where a walk ends, something lies. -/
theorem isSome_of_walk (fileTree : tree.IsFileTree) {place result : Place} {named : List String}
    (begins : (tree.node? place).isSome = true)
    (walked : tree.walk place named = .ok result) : (tree.node? result).isSome = true := by
  induction named generalizing place with
  | nil =>
      cases walked
      exact begins
  | cons part named ih =>
      obtain ⟨_, present, rest⟩ := walk_cons_eq_ok_iff.mp walked
      refine ih ?_ rest
      unfold Path.resolveStep
      by_cases stays : part = "."
      · rwa [if_pos stays]
      · by_cases rises : part = ".."
        · rw [if_neg stays, if_pos rises, isDirectory_iff.mp (fileTree.isDirectory_dropLast begins)]
          rfl
        · rw [if_neg stays, if_neg rises]
          exact (present stays rises).2

end IsFileTree

/-- Without parent steps a path leads down. -/
theorem prefix_resolve {named : List String} (noAbove : ".." ∉ named) (place : Place) :
    place <+: Path.resolve place named := by
  induction named generalizing place with
  | nil => exact List.prefix_rfl
  | cons part named ih =>
      have step : place <+: Path.resolveStep place part := by
        unfold Path.resolveStep
        split
        · exact List.prefix_rfl
        · have notAbove : part ≠ ".." := fun rises => noAbove (rises ▸ List.mem_cons_self)
          rw [if_neg notAbove]
          exact List.prefix_append _ _
      exact step.trans (ih (fun later => noAbove (List.mem_cons_of_mem _ later)) _)

namespace IsFileTree

/-- A directory is found where it lies. -/
theorem walk_of_isDirectory (fileTree : tree.IsFileTree) {place : Place} {named : List String}
    (noAbove : ".." ∉ named) (directory : tree.isDirectory (Path.resolve place named) = true) :
    tree.walk place named = .ok (Path.resolve place named) := by
  induction named generalizing place with
  | nil => rfl
  | cons part named ih =>
      have noneLater : ".." ∉ named := fun later => noAbove (List.mem_cons_of_mem _ later)
      have notAbove : part ≠ ".." := fun rises => noAbove (rises ▸ List.mem_cons_self)
      have stepDirectory : tree.isDirectory (Path.resolveStep place part) = true :=
        fileTree.isDirectory_of_prefix (prefix_resolve noneLater _) directory
      have begins : tree.isDirectory place = true := by
        refine fileTree.isDirectory_of_prefix ?_ stepDirectory
        exact @prefix_resolve [part] (by simpa using notAbove.symm) place
      refine walk_cons_eq_ok_iff.mpr ⟨begins, ?_, ih noneLater directory⟩
      intro notHere _
      rw [Path.resolveStep, if_neg notHere, if_neg notAbove] at stepDirectory
      have lies : tree.node? (place ++ [part]) = some .directory := isDirectory_iff.mp stepDirectory
      have member := (fileTree.node?_eq_some_iff (by simp)).mp lies
      refine ⟨fileTree.short _ member part (by simp), ?_⟩
      rw [lies]
      rfl

/-! ## Listing -/

theorem mem_below_iff {place names : Place} {node : Node} :
    (names, node) ∈ tree.below place ↔ names ≠ [] ∧ (place ++ names, node) ∈ tree.nodes := by
  unfold below
  rw [List.mem_filterMap]
  constructor
  · rintro ⟨⟨other, otherNode⟩, member, kept⟩
    simp only at kept
    split at kept
    · rename_i inside
      simp only [Bool.and_eq_true, bne_iff_ne] at inside
      cases kept
      obtain ⟨rest, rfl⟩ := List.isPrefixOf_iff_prefix.mp inside.1
      rw [List.drop_left]
      exact ⟨fun empty => inside.2 (by rw [empty, List.append_nil]), member⟩
    · cases kept
  · rintro ⟨nonempty, member⟩
    refine ⟨(place ++ names, node), member, ?_⟩
    have inside : (place.isPrefixOf (place ++ names) && place ++ names != place) = true := by
      simp [nonempty]
    simp only [if_pos inside, List.drop_left]

/-- The files below a directory are those that lie there. -/
theorem mem_filesBelow_iff (fileTree : tree.IsFileTree) {place names : Place}
    (located : tree.locate workingDirectory path = .ok place)
    (directory : tree.isDirectory place = true) :
    names ∈ tree.filesBelow workingDirectory path ↔
      ∃ content, tree.file? (place ++ names) = some content := by
  have isFile (content : ByteArray) : tree.file? (place ++ names) = some content ↔
      (names, Node.file content) ∈ tree.below place := by
    rw [mem_below_iff]
    unfold file?
    constructor
    · intro lies
      have nonempty : names ≠ [] := by
        rintro rfl
        rw [List.append_nil, isDirectory_iff.mp directory] at lies
        cases lies
      refine ⟨nonempty, (fileTree.node?_eq_some_iff (by simp [nonempty])).mp ?_⟩
      split at lies
      · rename_i found
        cases lies
        exact found
      · cases lies
    · rintro ⟨nonempty, member⟩
      rw [(fileTree.node?_eq_some_iff (by simp [nonempty])).mpr member]
  unfold filesBelow
  simp only [located, isDirectory_iff.mp directory, isFile]
  rw [List.mem_filterMap]
  constructor
  · rintro ⟨⟨found, node⟩, member, kept⟩
    cases node with
    | directory => cases kept
    | file content =>
        cases kept
        exact ⟨content, member⟩
  · rintro ⟨content, member⟩
    exact ⟨(names, .file content), member, rfl⟩

/-! ## Changes -/

theorem names_of_isSome (fileTree : tree.IsFileTree) {place : Place}
    (lies : (tree.node? place).isSome = true) :
    ∀ part ∈ place, Path.IsName part ∧ part.utf8ByteSize ≤ maxNameSize := by
  by_cases below : place = []
  · subst below
    exact nofun
  · obtain ⟨node, member⟩ := fileTree.mem_nodes below lies
    exact fun part partMember =>
      ⟨fileTree.named _ member part partMember, fileTree.short _ member part partMember⟩

theorem insert (fileTree : tree.IsFileTree) {place : Place} {name : String} {node : Node}
    (located : tree.locateNew workingDirectory path = .ok (place, name))
    (keeps : tree.isDirectory (place ++ [name]) = true → node = .directory) :
    (tree.insert (place ++ [name]) node).IsFileTree := by
  obtain ⟨_, _, _, _, directory, _, _, short⟩ := of_locateNew located
  have names : ∀ part ∈ place ++ [name], Path.IsName part ∧ part.utf8ByteSize ≤ maxNameSize := by
    intro part member
    rcases List.mem_append.mp member with earlier | last
    · exact fileTree.names_of_isSome (by rw [isDirectory_iff.mp directory]; rfl) part earlier
    · rw [List.mem_singleton.mp last]
      exact ⟨isName_of_locateNew located, short⟩
  have grows : tree.Grows (tree.insert (place ++ [name]) node) := grows_insert (by simp) keeps
  have entries : ∀ entry ∈ (tree.insert (place ++ [name]) node).nodes,
      entry ∈ tree.nodes ∨ entry = (place ++ [name], node) := by
    intro entry member
    rcases List.mem_append.mp member with earlier | last
    · exact .inl (List.mem_filter.mp earlier).1
    · exact .inr (List.mem_singleton.mp last)
  constructor
  · unfold Tree.insert
    rw [List.map_append, List.map_singleton, ← List.concat_eq_append, List.nodup_concat]
    constructor
    · intro taken
      obtain ⟨entry, member, same⟩ := List.mem_map.mp taken
      simpa [same] using (List.mem_filter.mp member).2
    · exact fileTree.distinct.sublist (List.filter_sublist.map _)
  · intro entry member part partMember
    rcases entries entry member with earlier | rfl
    · exact fileTree.named entry earlier part partMember
    · exact (names part partMember).1
  · intro entry member part partMember
    rcases entries entry member with earlier | rfl
    · exact fileTree.short entry earlier part partMember
    · exact (names part partMember).2
  · intro entry member
    rcases entries entry member with earlier | rfl
    · exact grows.directory _ (fileTree.inDirectory entry earlier)
    · rw [List.dropLast_concat]
      exact grows.directory _ directory

theorem makeDirectory (fileTree : tree.IsFileTree) {made : Tree}
    (succeeded : tree.makeDirectory workingDirectory path = .ok made) : made.IsFileTree := by
  obtain ⟨place, name, located, _, rfl⟩ := exists_insert_of_makeDirectory succeeded
  exact fileTree.insert located fun _ => rfl

theorem write (fileTree : tree.IsFileTree) {content : ByteArray} {written : Tree}
    (succeeded : tree.write workingDirectory path content = .ok written) :
    written.IsFileTree := by
  obtain ⟨place, name, located, noDirectory, rfl⟩ := exists_insert_of_write succeeded
  refine fileTree.insert located fun directory => ?_
  rw [noDirectory] at directory
  cases directory

theorem eraseBelow (fileTree : tree.IsFileTree) (place : Place) :
    (tree.eraseBelow place).IsFileTree := by
  have kept : ∀ entry ∈ (tree.eraseBelow place).nodes,
      entry ∈ tree.nodes ∧ ¬ place <+: entry.1 := by
    intro entry member
    obtain ⟨earlier, apart⟩ := List.mem_filter.mp member
    refine ⟨earlier, fun isPrefix => ?_⟩
    simp [List.isPrefixOf_iff_prefix.mpr isPrefix] at apart
  constructor
  · exact fileTree.distinct.sublist (List.filter_sublist.map _)
  · exact fun entry member => fileTree.named entry (kept entry member).1
  · exact fun entry member => fileTree.short entry (kept entry member).1
  · intro entry member
    obtain ⟨earlier, apart⟩ := kept entry member
    have directory := fileTree.inDirectory entry earlier
    by_cases root : entry.1.dropLast = []
    · rw [root]
      rfl
    · rw [isDirectory_iff, node?_eraseBelow tree place root, if_neg]
      · exact isDirectory_iff.mp directory
      · exact fun isPrefix => apart (isPrefix.trans (List.dropLast_prefix _))

end IsFileTree

end WikiPress.Files.Tree
