import WikiPress.Proofs.Files.FileTrees
import WikiPress.Proofs.Site.OutputWrites

/-!
# A saver changes nothing outside

The output of a site is a directory that no parent step leads to.  A saver works there and
nowhere else: it makes directories on the way to it, takes away what lies in it, and puts
files into it.  What it leaves there does not depend on what lay there before.
-/

namespace WikiPress.Files

/-! ## Direct paths -/

/-- An absolute path whose parts are names. -/
structure Path.IsDirect (path : Path) : Prop where
  absolute : isAbsolute path = true
  isName : ∀ name ∈ parts path, IsName name

namespace Path.IsDirect

variable {path other : Path}

/-- Nothing need be looked up to say where a direct path leads. -/
theorem writtenPlace_eq (direct : IsDirect path) (workingDirectory : Place) :
    Site.writtenPlace workingDirectory path = parts path := by
  unfold Site.writtenPlace Tree.startOf
  rw [if_pos direct.absolute, resolve_of_isName [] direct.isName, List.nil_append]

theorem ne_empty (direct : IsDirect path) : path ≠ "" :=
  ne_empty_of_isAbsolute direct.absolute

theorem join (direct : IsDirect path) (plain : IsPlain other) :
    IsDirect (Path.join path other) := by
  constructor
  · rw [isAbsolute_join plain.relative]
    exact direct.absolute
  · rw [parts_join plain.relative]
    intro name member
    rcases List.mem_append.mp member with above | below
    · exact direct.isName name above
    · exact plain.isName name below

theorem ofParts {named : List String} (isName : ∀ name ∈ named, IsName name) :
    IsDirect (Path.ofParts named) := by
  constructor
  · exact isAbsolute_ofParts named
  · rwa [parts_ofParts fun name member => (isName name member).toIsPart]

/-- The directories above a direct path. -/
theorem of_mem_ancestors (direct : IsDirect path) (member : other ∈ System.ancestors path) :
    IsDirect other ∧ parts other <+: parts path := by
  unfold System.ancestors at member
  simp only [List.mem_map, List.mem_reverse, exists_exists_and_eq_and] at member
  obtain ⟨count, _, rfl⟩ := member
  have names : ∀ name ∈ (parts path).take count, IsName name := fun name inTake =>
    direct.isName name ((List.take_sublist _ _).mem inTake)
  rw [if_pos direct.absolute]
  refine ⟨ofParts names, ?_⟩
  rw [parts_ofParts fun name member => (names name member).toIsPart]
  exact List.take_prefix _ _

theorem of_parent? (direct : IsDirect path) (parent : parent? path = some other) :
    IsDirect other ∧ parts other <+: parts path := by
  unfold parent? at parent
  split at parent
  · cases parent
  · rw [if_pos direct.absolute] at parent
    cases parent
    have names : ∀ name ∈ (parts path).dropLast, IsName name := fun name inDrop =>
      direct.isName name ((List.dropLast_sublist _).mem inDrop)
    refine ⟨ofParts names, ?_⟩
    rw [parts_ofParts fun name member => (names name member).toIsPart]
    exact List.dropLast_prefix _

end Path.IsDirect

namespace Tree

variable {workingDirectory : Place}

/-- What is done to make a directory at a direct path is done at places on the way. -/
theorem Composes.makeDirectories {holds : {α : Type} → StateM Tree α → Prop}
    (composes : Composes holds) {path : Path} (direct : Path.IsDirect path)
    (looks : ∀ other, Path.IsDirect other → Path.parts other <+: Path.parts path →
      holds ((system workingDirectory).isDirectory other))
    (makes : ∀ other, Path.IsDirect other → Path.parts other <+: Path.parts path →
      holds ((system workingDirectory).makeDirectory other)) :
    holds ((system workingDirectory).makeDirectories path) := by
  have onTheWay : ∀ other ∈ path :: System.ancestors path,
      Path.IsDirect other ∧ Path.parts other <+: Path.parts path :=
    List.forall_mem_cons.mpr ⟨⟨direct, List.prefix_rfl⟩, fun other => direct.of_mem_ancestors⟩
  exact composes.makeDirectoryIn
    (fun other member => looks other (onTheWay other member).1 (onTheWay other member).2)
    fun other member => makes other (onTheWay other member).1 (onTheWay other member).2

/-- Behind the directories above it a file is written. -/
theorem Composes.writeBelow {holds : {α : Type} → StateM Tree α → Prop}
    (composes : Composes holds) {root path : Path} {content : ByteArray}
    (makes : ∀ parent, Path.parent? (Path.join root path) = some parent →
      holds ((system workingDirectory).makeDirectories parent))
    (writes : holds ((system workingDirectory).write (Path.join root path) content)) :
    holds (Saver.writeBelow (system workingDirectory) root path content) := by
  unfold Saver.writeBelow
  simp only
  split
  · rename_i parent isParent
    apply composes.chain (makes parent isParent)
    rintro (error | _)
    · exact composes.answer _
    · exact writes
  · exact writes

end Tree

end WikiPress.Files

namespace WikiPress.Site

open Files Files.Tree

variable {workingDirectory : Place} {out : Place} {root path : Path} {tree : Tree}

/-! ## Working in a directory -/

/-- Two trees have the same nodes at all places that are not in a directory. -/
def SameOutside (out : Place) (first second : Tree) : Prop :=
  ∀ place, ¬ out <+: place → first.node? place = second.node? place

theorem SameOutside.refl (out : Place) (tree : Tree) : SameOutside out tree tree :=
  fun _ _ => rfl

theorem SameOutside.symm {first second : Tree} (same : SameOutside out first second) :
    SameOutside out second first :=
  fun place outside => (same place outside).symm

theorem SameOutside.trans {first second third : Tree} (same : SameOutside out first second)
    (again : SameOutside out second third) : SameOutside out first third :=
  fun place outside => (same place outside).trans (again place outside)

theorem SameOutside.file?_eq {first second : Tree} (same : SameOutside out first second)
    {place : Place} (outside : ¬ out <+: place) : first.file? place = second.file? place := by
  unfold file?
  rw [same place outside]

/-- A tree of files with a directory, and another one that differs in it alone. -/
structure ChangedIn (out : Place) (before after : Tree) : Prop where
  fileTree : after.IsFileTree
  directory : after.isDirectory out = true
  outside : SameOutside out after before

/-- An action that changes nothing outside a directory, as long as it is there. -/
def WorksIn (out : Place) {α : Type} (action : StateM Tree α) : Prop :=
  ∀ tree : Tree, tree.IsFileTree → tree.isDirectory out = true →
    ChangedIn out tree (action.run tree).2

theorem composes_worksIn (out : Place) : Composes (WorksIn out) := by
  refine ⟨fun value tree fileTree directory => ⟨fileTree, directory, .refl out tree⟩, ?_⟩
  intro α β action following works rest tree fileTree directory
  have between := works tree fileTree directory
  have after := rest (action.run tree).1 _ between.fileTree between.directory
  rw [run_bind_state]
  exact ⟨after.fileTree, after.directory, after.outside.trans between.outside⟩

theorem sameOutside_insert (tree : Tree) {target : Place} (node : Node) (below : target ≠ [])
    (inside : out <+: target) : SameOutside out (tree.insert target node) tree := by
  intro place outside
  rw [node?_insert tree node below, if_neg]
  rintro rfl
  exact outside inside

/-- What is put into a directory changes nothing outside. -/
theorem changedIn_insert {tree : Tree} {target : Place} {node : Node} (below : target ≠ [])
    (inside : out <+: target) (fileTree : (tree.insert target node).IsFileTree)
    (directory : tree.isDirectory out = true)
    (keeps : tree.isDirectory target = true → node = .directory) :
    ChangedIn out tree (tree.insert target node) := by
  exact ⟨fileTree, (grows_insert below keeps).directory out directory,
    sameOutside_insert tree node below inside⟩

theorem worksIn_change {step : Tree → Except FileError Tree}
    (changes : ∀ tree made, tree.IsFileTree → tree.isDirectory out = true →
      step tree = .ok made → ChangedIn out tree made) : WorksIn out (change step) := by
  intro tree fileTree directory
  rcases run_change tree step with ⟨made, makes, run⟩ | ⟨error, run⟩
  · rw [run]
    exact changes tree made fileTree directory makes
  · rw [run]
    exact ⟨fileTree, directory, .refl out tree⟩

/-- On the way to a directory that is there no other one can be made. -/
theorem worksIn_makeDirectory (direct : Path.IsDirect path)
    (onTheWay : Path.parts path <+: out ∨ out <+: Path.parts path) :
    WorksIn out ((system workingDirectory).makeDirectory path) := by
  apply worksIn_change
  intro tree made fileTree directory makes
  have madeTree := fileTree.makeDirectory makes
  obtain ⟨place, name, located, new, rfl⟩ := exists_insert_of_makeDirectory makes
  have target : Path.parts path = place ++ [name] :=
    (direct.writtenPlace_eq workingDirectory).symm.trans (resolve_of_locateNew located)
  rw [target] at onTheWay
  rcases onTheWay with above | inside
  · have lies := fileTree.isSome_of_prefix above (by rw [isDirectory_iff.mp directory]; rfl)
    rw [new] at lies
    cases lies
  · exact changedIn_insert (by simp) inside madeTree directory fun _ => rfl

theorem worksIn_isDirectory (out : Place) (path : Path) :
    WorksIn out ((system workingDirectory).isDirectory path) :=
  fun tree fileTree directory => ⟨fileTree, directory, .refl out tree⟩

theorem worksIn_write (direct : Path.IsDirect path) (inside : out <+: Path.parts path)
    (content : ByteArray) : WorksIn out ((system workingDirectory).write path content) := by
  apply worksIn_change
  intro tree written fileTree directory writes
  have writtenTree := fileTree.write writes
  obtain ⟨place, name, located, noDirectory, rfl⟩ := exists_insert_of_write writes
  have target : Path.parts path = place ++ [name] :=
    (direct.writtenPlace_eq workingDirectory).symm.trans (resolve_of_locateNew located)
  rw [target] at inside
  refine changedIn_insert (by simp) inside writtenTree directory fun isDirectory => ?_
  rw [noDirectory] at isDirectory
  cases isDirectory

theorem worksIn_writeBelow (direct : Path.IsDirect root) (plain : Path.IsPlain path)
    (content : ByteArray) :
    WorksIn (Path.parts root) (Saver.writeBelow (system workingDirectory) root path content) := by
  have target := direct.join plain
  have inside : Path.parts root <+: Path.parts (Path.join root path) := by
    rw [Path.parts_join plain.relative]
    exact List.prefix_append _ _
  refine (composes_worksIn _).writeBelow ?_ (worksIn_write target inside content)
  intro parent isParent
  obtain ⟨parentDirect, above⟩ := target.of_parent? isParent
  refine (composes_worksIn _).makeDirectories parentDirect
    (fun other _ _ => worksIn_isDirectory _ other) fun other otherDirect onTheWay => ?_
  exact worksIn_makeDirectory otherDirect
    (List.prefix_or_prefix_of_prefix (onTheWay.trans above) inside)

/-! ## Making the way to a directory -/

/-- A later tree of files in which directories have been made on the way to a place. -/
structure MadeTo (out : Place) (before after : Tree) : Prop where
  fileTree : after.IsFileTree
  same_or_made : ∀ place, after.node? place = before.node? place ∨
    place <+: out ∧ before.node? place = none ∧ after.node? place = some .directory

theorem MadeTo.trans {before middle after : Tree} (first : MadeTo out before middle)
    (second : MadeTo out middle after) : MadeTo out before after := by
  refine ⟨second.fileTree, fun place => ?_⟩
  rcases second.same_or_made place with same | ⟨above, new, made⟩
  · rw [same]
    exact first.same_or_made place
  · rcases first.same_or_made place with same | ⟨_, _, madeBefore⟩
    · exact .inr ⟨above, same ▸ new, made⟩
    · rw [new] at madeBefore
      cases madeBefore

/-- An action that only makes directories on the way to a place. -/
def MakesTo (out : Place) {α : Type} (action : StateM Tree α) : Prop :=
  ∀ tree : Tree, tree.IsFileTree → MadeTo out tree (action.run tree).2

theorem composes_makesTo (out : Place) : Composes (MakesTo out) := by
  refine ⟨fun value tree fileTree => ⟨fileTree, fun _ => .inl rfl⟩, ?_⟩
  intro α β action following makes rest tree fileTree
  have between := makes tree fileTree
  rw [run_bind_state]
  exact between.trans (rest _ _ between.fileTree)

theorem makesTo_makeDirectory (direct : Path.IsDirect path) (onTheWay : Path.parts path <+: out) :
    MakesTo out ((system workingDirectory).makeDirectory path) := by
  intro tree fileTree
  have asked : ((system workingDirectory).makeDirectory path).run tree =
    (change fun tree => tree.makeDirectory workingDirectory path).run tree := rfl
  rw [asked]
  rcases run_change tree fun tree => tree.makeDirectory workingDirectory path with
    ⟨made, makes, run⟩ | ⟨error, run⟩
  · rw [run]
    have madeTree := fileTree.makeDirectory makes
    obtain ⟨place, name, located, new, rfl⟩ := exists_insert_of_makeDirectory makes
    have target : Path.parts path = place ++ [name] :=
      (direct.writtenPlace_eq workingDirectory).symm.trans (resolve_of_locateNew located)
    refine ⟨madeTree, fun other => ?_⟩
    rw [node?_insert tree .directory (by simp)]
    by_cases here : other = place ++ [name]
    · rw [if_pos here, here]
      exact .inr ⟨target ▸ onTheWay, new, rfl⟩
    · rw [if_neg here]
      exact .inl rfl
  · rw [run]
    exact ⟨fileTree, fun _ => .inl rfl⟩

theorem makesTo_makeDirectories (workingDirectory : Place) (direct : Path.IsDirect root) :
    MakesTo (Path.parts root) ((system workingDirectory).makeDirectories root) :=
  (composes_makesTo _).makeDirectories direct
    (fun _ _ _ _ fileTree => ⟨fileTree, fun _ => .inl rfl⟩)
    fun _ otherDirect onTheWay => makesTo_makeDirectory otherDirect onTheWay

/-! ## Clearing a directory -/

/-- A path as a located output has it: direct, and without `.` between its slashes. -/
structure IsRoot (root : Path) : Prop extends Path.IsDirect root where
  written : Path.rawParts root = Path.parts root

/-- A tree of files in which a root is a directory or absent. -/
structure HasRoom (root : Path) (tree : Tree) : Prop where
  fileTree : tree.IsFileTree
  absent_or_directory :
    tree.node? (Path.parts root) = none ∨ tree.node? (Path.parts root) = some .directory

theorem IsRoot.walk_eq (isRoot : IsRoot root) {tree : Tree} (fileTree : tree.IsFileTree)
    {above : Place} (isPrefix : above <+: Path.parts root)
    (directory : tree.isDirectory above = true) :
    tree.walk (startOf workingDirectory root) above = .ok above := by
  have names : ∀ name ∈ above, Path.IsName name := fun name member =>
    isRoot.isName name (isPrefix.subset member)
  have place : Path.resolve (startOf workingDirectory root) above = above := by
    rw [startOf, if_pos isRoot.absolute, Path.resolve_of_isName [] names, List.nil_append]
  have walked : tree.walk (startOf workingDirectory root) above =
      .ok (Path.resolve (startOf workingDirectory root) above) :=
    fileTree.walk_of_isDirectory (fun rises => (names _ rises).ne_above rfl)
      (by rw [place]; exact directory)
  rw [walked, place]

/-- A root is found exactly if it is a directory. -/
theorem HasRoom.locate_eq (room : HasRoom root tree) (workingDirectory : Place)
    (isRoot : IsRoot root) (checked : checkPath root = .ok ()) :
    (tree.node? (Path.parts root) = some .directory ∧
        tree.locate workingDirectory root = .ok (Path.parts root)) ∨
      tree.node? (Path.parts root) = none ∧
        ∀ place, tree.locate workingDirectory root ≠ .ok place := by
  rcases room.absent_or_directory with absent | directory
  · refine .inr ⟨absent, fun place located => ?_⟩
    have begins : (tree.node? (startOf workingDirectory root)).isSome = true := by
      rw [startOf, if_pos isRoot.absolute]
      rfl
    have lies := room.fileTree.isSome_of_walk begins (locate_eq_ok_iff.mp located).2.1
    have placeEq : place = Path.parts root :=
      (locate_eq_resolve located).trans (isRoot.writtenPlace_eq workingDirectory)
    rw [placeEq, absent] at lies
    cases lies
  · refine .inl ⟨directory, locate_eq_ok_iff.mpr ⟨checked, ?_, ?_⟩⟩
    · rw [isRoot.written]
      exact isRoot.walk_eq room.fileTree List.prefix_rfl (isDirectory_iff.mpr directory)
    · exact fun _ => isDirectory_iff.mpr directory

theorem run_present (tree : Tree) (path : Path) :
    ((system workingDirectory).present path).run tree =
      ((tree.locate workingDirectory path).isOk, tree) := by
  have asked : ((system workingDirectory).kind path).run tree =
      (tree.kind workingDirectory path, tree) := rfl
  unfold System.present
  rw [run_bind_state, asked]
  unfold Tree.kind
  cases tree.locate workingDirectory path <;> rfl

theorem locate_of_checkPath_error {error : FileError} (refused : checkPath path = .error error)
    (tree : Tree) : tree.locate workingDirectory path = .error error := by
  unfold Tree.locate
  rw [refused]
  rfl

theorem ne_notFound_of_checkPath {error : FileError} (nonempty : path ≠ "")
    (refused : checkPath path = .error error) : error ≠ .notFound := by
  rintro rfl
  unfold checkPath at refused
  split at refused
  · cases refused
  · split at refused
    · rename_i empty
      exact nonempty (String.isEmpty_iff.mp empty)
    · split at refused <;> cases refused

/-- Nothing is done at a path that is refused. -/
theorem run_recreateDirectory_of_error {error : FileError} (nonempty : root ≠ "")
    (refused : checkPath root = .error error) (tree : Tree) :
    (Saver.recreateDirectory (system workingDirectory) root).run tree = (.error error, tree) := by
  have nowhere : tree.locate workingDirectory root = .error error :=
    locate_of_checkPath_error refused tree
  have made : ((system workingDirectory).makeDirectory root).run tree = (.error error, tree) := by
    refine (run_change_eq tree _).trans ?_
    unfold makeDirectory locateNew
    rw [refused]
    rfl
  have looked : ((system workingDirectory).isDirectory root).run tree = (false, tree) := by
    have asked : ((system workingDirectory).kind root).run tree =
        (tree.kind workingDirectory root, tree) := rfl
    unfold System.isDirectory
    rw [run_bind_state, asked]
    unfold Tree.kind
    rw [nowhere]
    rfl
  unfold Saver.recreateDirectory
  rw [run_bind_state, run_present, nowhere]
  change ((system workingDirectory).makeDirectories root).run tree = _
  unfold System.makeDirectories System.makeDirectoryIn
  rw [if_neg (by simpa using nonempty), run_bind_state, made]
  split
  · contradiction
  · rename_i same
    exact absurd (Except.error.inj same) (ne_notFound_of_checkPath nonempty refused)
  · rename_i same
    cases same
    rw [run_bind_state, looked]
    rfl

/-- Clearing a root makes the way to it in the tree without what lay there. -/
theorem HasRoom.exists_cleared (room : HasRoom root tree) (workingDirectory : Place)
    (isRoot : IsRoot root) (checked : checkPath root = .ok ()) :
    ∃ cleared : Tree, cleared.IsFileTree ∧
      cleared.node? = (tree.eraseBelow (Path.parts root)).node? ∧
      (Saver.recreateDirectory (system workingDirectory) root).run tree =
        ((system workingDirectory).makeDirectories root).run cleared := by
  unfold Saver.recreateDirectory
  rw [run_bind_state, run_present]
  rcases room.locate_eq workingDirectory isRoot checked with
    ⟨directory, located⟩ | ⟨absent, nowhere⟩
  · refine ⟨tree.eraseBelow (Path.parts root), room.fileTree.eraseBelow _, rfl, ?_⟩
    have removed : ((system workingDirectory).removeDirectory root).run tree =
        (.ok (), tree.eraseBelow (Path.parts root)) := by
      refine (run_change_eq tree _).trans ?_
      unfold removeDirectory
      simp [located, isDirectory_iff.mpr directory, Bind.bind, Except.bind]
    rw [located]
    change (((system workingDirectory).removeDirectory root) >>= _).run tree = _
    rw [run_bind_state, removed]
  · refine ⟨tree, room.fileTree, ?_, ?_⟩
    · funext place
      by_cases below : place = []
      · rw [below]
        rfl
      · rw [node?_eraseBelow tree _ below]
        split
        · rename_i inside
          by_contra lies
          have above := room.fileTree.isSome_of_prefix inside (Option.isSome_iff_ne_none.mpr lies)
          rw [absent] at above
          cases above
        · rfl
    · cases located : tree.locate workingDirectory root with
      | ok place => exact absurd located (nowhere place)
      | error error => rfl

theorem node?_eraseBelow_congr {first second : Tree} (same : SameOutside out first second) :
    (first.eraseBelow out).node? = (second.eraseBelow out).node? := by
  funext place
  by_cases below : place = []
  · rw [below]
    rfl
  · rw [node?_eraseBelow first out below, node?_eraseBelow second out below]
    split
    · rfl
    · rename_i outside
      exact same place outside

/-- What clearing a root answers and leaves does not depend on what lay there. -/
theorem run_recreateDirectory_congr {first second : Tree} (workingDirectory : Place)
    (isRoot : IsRoot root)
    (firstRoom : HasRoom root first) (secondRoom : HasRoom root second)
    (same : SameOutside (Path.parts root) first second) :
    ((Saver.recreateDirectory (system workingDirectory) root).run first).1 =
        ((Saver.recreateDirectory (system workingDirectory) root).run second).1 ∧
      (((Saver.recreateDirectory (system workingDirectory) root).run first).1 = .ok () →
        ((Saver.recreateDirectory (system workingDirectory) root).run first).2.node? =
          ((Saver.recreateDirectory (system workingDirectory) root).run second).2.node?) := by
  cases checked : checkPath root with
  | error error =>
      rw [run_recreateDirectory_of_error isRoot.ne_empty checked,
        run_recreateDirectory_of_error isRoot.ne_empty checked]
      exact ⟨rfl, nofun⟩
  | ok _ =>
      obtain ⟨firstCleared, _, firstNodes, firstRun⟩ :=
        firstRoom.exists_cleared workingDirectory isRoot checked
      obtain ⟨secondCleared, _, secondNodes, secondRun⟩ :=
        secondRoom.exists_cleared workingDirectory isRoot checked
      have sameNodes : firstCleared.node? = secondCleared.node? := by
        rw [firstNodes, secondNodes, node?_eraseBelow_congr same]
      obtain ⟨answers, nodes⟩ :=
        respects_makeDirectories workingDirectory root firstCleared secondCleared sameNodes
      rw [firstRun, secondRun]
      exact ⟨answers, fun _ => nodes⟩

/-- No file outside is touched when a root is cleared, even if that fails. -/
theorem file?_run_recreateDirectory (workingDirectory : Place) (isRoot : IsRoot root)
    (room : HasRoom root tree) {place : Place} (outside : ¬ Path.parts root <+: place) :
    ((Saver.recreateDirectory (system workingDirectory) root).run tree).2.file? place =
      tree.file? place := by
  cases checked : checkPath root with
  | error error => rw [run_recreateDirectory_of_error isRoot.ne_empty checked]
  | ok _ =>
      obtain ⟨cleared, _, nodes, run⟩ :=
        room.exists_cleared workingDirectory isRoot checked
      have files : cleared.file? place = (tree.eraseBelow (Path.parts root)).file? place := by
        unfold file?
        rw [nodes]
      rw [run, (onlyMakes_makeDirectories workingDirectory root cleared).file?_eq, files,
        file?_eraseBelow, if_neg outside]

/-- Outside a directory all is as it was, but for directories that have been made on the way
to it. -/
def SameSources (out : Place) (before after : Tree) : Prop :=
  ∀ place, ¬ out <+: place → after.node? place = before.node? place ∨
    place <+: out ∧ before.node? place = none ∧ after.node? place = some .directory

/-- A tree of files in which a root has been cleared. -/
structure IsCleared (root : Path) (before after : Tree) : Prop where
  fileTree : after.IsFileTree
  directory : after.isDirectory (Path.parts root) = true
  empty : ∀ names, names ≠ [] → after.node? (Path.parts root ++ names) = none
  outside : SameSources (Path.parts root) before after

theorem isCleared_of_run_recreateDirectory {after : Tree} (isRoot : IsRoot root)
    (room : HasRoom root tree)
    (succeeded : (Saver.recreateDirectory (system workingDirectory) root).run tree =
      (.ok (), after)) : IsCleared root tree after := by
  cases checked : checkPath root with
  | error error =>
      rw [run_recreateDirectory_of_error isRoot.ne_empty checked] at succeeded
      cases succeeded
  | ok _ =>
      obtain ⟨cleared, clearedTree, nodes, run⟩ :=
        room.exists_cleared workingDirectory isRoot checked
      rw [run] at succeeded
      have made := makesTo_makeDirectories workingDirectory isRoot.toIsDirect cleared clearedTree
      rw [succeeded] at made
      have erased (place : Place) (below : place ≠ []) : cleared.node? place =
          if Path.parts root <+: place then none else tree.node? place := by
        rw [nodes, node?_eraseBelow tree _ below]
      constructor
      · exact made.fileTree
      · obtain ⟨place, located, directory⟩ :=
          isDirectory_of_makeDirectories isRoot.ne_empty succeeded
        have placeEq : place = Path.parts root :=
          (locate_eq_resolve located).trans (isRoot.writtenPlace_eq workingDirectory)
        rwa [placeEq] at directory
      · intro names nonempty
        have lay := erased (Path.parts root ++ names) (by simp [nonempty])
        rw [if_pos (List.prefix_append _ _)] at lay
        rcases made.same_or_made (Path.parts root ++ names) with same | ⟨above, _, _⟩
        · exact same.trans lay
        · have shorter := above.length_le
          rw [List.length_append] at shorter
          exact absurd (List.length_pos_iff.mpr nonempty) (by omega)
      · intro place outside
        by_cases below : place = []
        · rw [below]
          exact .inl rfl
        · have lay := erased place below
          rw [if_neg outside] at lay
          rw [← lay]
          exact made.same_or_made place

/-- A root that has been cleared can be cleared again, and then is what it was. -/
theorem IsCleared.run_again {before after : Tree} (isCleared : IsCleared root before after)
    (workingDirectory : Place) (isRoot : IsRoot root) (checked : checkPath root = .ok ())
    (nonroot : Path.parts root ≠ []) :
    ∃ again, (Saver.recreateDirectory (system workingDirectory) root).run after =
      (.ok (), again) ∧ again.node? = after.node? := by
  have room : HasRoom root after :=
    ⟨isCleared.fileTree, .inr (isDirectory_iff.mp isCleared.directory)⟩
  obtain ⟨cleared, clearedTree, nodes, run⟩ :=
    room.exists_cleared workingDirectory isRoot checked
  obtain ⟨above, name, split⟩ : ∃ above name, Path.parts root = above ++ [name] :=
    ⟨_, _, (List.dropLast_append_getLast nonroot).symm⟩
  have erased (place : Place) (below : place ≠ []) : cleared.node? place =
      if Path.parts root <+: place then none else after.node? place := by
    rw [nodes, node?_eraseBelow after _ below]
  have absent : cleared.node? (above ++ [name]) = none := by
    rw [erased _ (by simp), split, if_pos List.prefix_rfl]
  have lies : (after.node? (above ++ [name])).isSome = true := by
    rw [← split, isDirectory_iff.mp isCleared.directory]
    rfl
  have aboveDirectory : cleared.isDirectory above = true := by
    by_cases top : above = []
    · rw [top]
      rfl
    · have longer : ¬ Path.parts root <+: above := by
        intro isPrefix
        have shorter := isPrefix.length_le
        rw [split, List.length_append] at shorter
        exact absurd shorter (by simp)
      rw [isDirectory_iff, erased above top, if_neg longer]
      exact isDirectory_iff.mp (isCleared.fileTree.isDirectory_of_append lies (by simp))
  have located : cleared.locateNew workingDirectory root = .ok (above, name) := by
    obtain ⟨isName, short⟩ := isCleared.fileTree.names_of_isSome lies name (by simp)
    have walked : cleared.walk (startOf workingDirectory root) above = .ok above :=
      isRoot.walk_eq clearedTree ⟨[name], split.symm⟩ aboveDirectory
    unfold locateNew
    rw [checked, isRoot.written, split, List.reverse_concat]
    simp [Bind.bind, Except.bind, walked, aboveDirectory, isName.ne_here, isName.ne_above,
      Nat.not_lt_of_le short]
  have made : ((system workingDirectory).makeDirectory root).run cleared =
      (.ok (), cleared.insert (above ++ [name]) .directory) := by
    refine (run_change_eq cleared _).trans ?_
    unfold makeDirectory
    simp [located, absent, Bind.bind, Except.bind]
  refine ⟨cleared.insert (above ++ [name]) .directory, ?_, ?_⟩
  · rw [run]
    unfold System.makeDirectories System.makeDirectoryIn
    rw [if_neg (by simpa using isRoot.ne_empty), run_bind_state, made]
    rfl
  · funext place
    rw [node?_insert cleared .directory (by simp), ← split]
    by_cases here : place = Path.parts root
    · rw [if_pos here, here, isDirectory_iff.mp isCleared.directory]
    · rw [if_neg here]
      by_cases below : place = []
      · rw [below]
        rfl
      · rw [erased place below]
        split
        · rename_i inside
          obtain ⟨names, rfl⟩ := inside
          exact (isCleared.empty names fun none => here (by rw [none, List.append_nil])).symm
        · rfl

end WikiPress.Site
