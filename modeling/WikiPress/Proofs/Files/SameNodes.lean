import WikiPress.Proofs.Files.TreeFiles

/-!
# What is read of a tree

Where a path leads, and what lies there, depends on no more than the nodes on the way.  So
an action on files answers the same in trees that have the same nodes, however these are
stored, and leaves trees with the same nodes behind.
-/

namespace WikiPress.Files.Tree

variable {first second : Tree} {workingDirectory : Place} {path : Path}

/-! ## Nodes on the way -/

theorem isDirectory_congr {place : Place} (same : first.node? place = second.node? place) :
    first.isDirectory place = second.isDirectory place := by
  unfold isDirectory
  rw [same]

/-- A walk looks at no places but those that it comes to. -/
theorem walk_congr {place : Place} {named : List String}
    (agree : ∀ steps, steps <+: named →
      first.node? (Path.resolve place steps) = second.node? (Path.resolve place steps)) :
    first.walk place named = second.walk place named := by
  induction named generalizing place with
  | nil => rfl
  | cons part rest ih =>
      have here : first.node? place = second.node? place := agree [] List.nil_prefix
      have next : first.node? (Path.resolveStep place part) =
          second.node? (Path.resolveStep place part) := agree [part] ⟨rest, rfl⟩
      have onward : first.walk (Path.resolveStep place part) rest =
          second.walk (Path.resolveStep place part) rest :=
        ih fun steps isPrefix => agree (part :: steps) (List.cons_prefix_cons.mpr ⟨rfl, isPrefix⟩)
      unfold walk
      unfold Path.resolveStep at next onward
      rw [isDirectory_congr here]
      split
      · rfl
      · by_cases stays : part = "."
        · simpa [stays] using onward
        · by_cases rises : part = ".."
          · simpa [rises] using onward
          · simp only [if_neg stays, if_neg rises] at next onward ⊢
            rw [next, onward]

/-- Two trees have the same nodes wherever a path leads past. -/
def AgreeAlong (workingDirectory : Place) (path : Path) (first second : Tree) : Prop :=
  ∀ steps, steps <+: Path.rawParts path →
    first.node? (Path.resolve (startOf workingDirectory path) steps) =
      second.node? (Path.resolve (startOf workingDirectory path) steps)

theorem agreeAlong_of_node?_eq (same : first.node? = second.node?) :
    AgreeAlong workingDirectory path first second :=
  fun _ _ => congrFun same _

theorem AgreeAlong.locate (agree : AgreeAlong workingDirectory path first second) :
    first.locate workingDirectory path = second.locate workingDirectory path := by
  unfold Tree.locate
  rw [walk_congr agree]
  cases checkPath path with
  | error error => rfl
  | ok _ =>
      cases walked : second.walk (startOf workingDirectory path) (Path.rawParts path) with
      | error error => rfl
      | ok place =>
          have same := agree (Path.rawParts path) List.prefix_rfl
          rw [← walk_eq_resolve walked] at same
          simp only [Bind.bind, Except.bind]
          rw [isDirectory_congr same]

/-- The node that a path leads to is the same. -/
theorem AgreeAlong.node? (agree : AgreeAlong workingDirectory path first second) {place : Place}
    (located : second.locate workingDirectory path = .ok place) :
    first.node? place = second.node? place := by
  have same := agree (Path.rawParts path) List.prefix_rfl
  rwa [← walk_eq_resolve (locate_eq_ok_iff.mp located).2.1] at same

theorem AgreeAlong.kind (agree : AgreeAlong workingDirectory path first second) :
    first.kind workingDirectory path = second.kind workingDirectory path := by
  unfold Tree.kind
  rw [agree.locate]
  cases located : second.locate workingDirectory path with
  | error error => rfl
  | ok place =>
      simp only [Bind.bind, Except.bind]
      rw [isDirectory_congr (agree.node? located)]

theorem AgreeAlong.read (agree : AgreeAlong workingDirectory path first second) :
    first.read workingDirectory path = second.read workingDirectory path := by
  unfold Tree.read
  rw [agree.locate]
  cases located : second.locate workingDirectory path with
  | error error => rfl
  | ok place =>
      simp only [Bind.bind, Except.bind]
      rw [agree.node? located]

/-- The text of the file at a path. -/
def text (tree : Tree) (workingDirectory : Place) (path : Path) : Except FileError String :=
  match tree.read workingDirectory path with
  | .error error => .error error
  | .ok bytes =>
    match String.fromUTF8? bytes with
    | some text => .ok text
    | none => .error .notText

theorem run_readText (tree : Tree) (workingDirectory : Place) (path : Path) :
    ((system workingDirectory).readText path).run tree =
      (tree.text workingDirectory path, tree) := by
  have asked : ((system workingDirectory).read path).run tree =
      (tree.read workingDirectory path, tree) := rfl
  unfold System.readText Tree.text
  rw [run_bind_state, asked]
  cases tree.read workingDirectory path with
  | error error => rfl
  | ok bytes =>
      simp only
      cases String.fromUTF8? bytes <;> rfl

theorem AgreeAlong.text (agree : AgreeAlong workingDirectory path first second) :
    first.text workingDirectory path = second.text workingDirectory path := by
  unfold Tree.text
  rw [agree.read]

/-- What can be read as a text can be read. -/
theorem exists_read_of_text {tree : Tree} {text : String}
    (read : tree.text workingDirectory path = .ok text) :
    ∃ bytes, tree.read workingDirectory path = .ok bytes := by
  unfold Tree.text at read
  cases bytes : tree.read workingDirectory path with
  | error error =>
      rw [bytes] at read
      cases read
  | ok content => exact ⟨content, rfl⟩

theorem locateNew_congr (same : first.node? = second.node?) :
    first.locateNew workingDirectory path = second.locateNew workingDirectory path := by
  have walks (place : Place) (named : List String) :
      first.walk place named = second.walk place named := walk_congr fun _ _ => congrFun same _
  have directories : first.isDirectory = second.isDirectory :=
    funext fun place => isDirectory_congr (congrFun same place)
  unfold locateNew
  simp only [walks, directories]

/-! ## Changes -/

theorem node?_insert_congr (same : first.node? = second.node?) {place : Place}
    (below : place ≠ []) (node : Node) :
    (first.insert place node).node? = (second.insert place node).node? := by
  funext other
  rw [node?_insert first node below, node?_insert second node below, same]

theorem makeDirectory_congr (same : first.node? = second.node?) :
    (first.makeDirectory workingDirectory path).map node? =
      (second.makeDirectory workingDirectory path).map node? := by
  unfold makeDirectory
  rw [locateNew_congr same]
  cases second.locateNew workingDirectory path with
  | error error => rfl
  | ok found =>
      obtain ⟨place, name⟩ := found
      simp only [Bind.bind, Except.bind, same]
      split
      · rfl
      · exact congrArg Except.ok (node?_insert_congr same (by simp) .directory)

theorem write_congr (same : first.node? = second.node?) (content : ByteArray) :
    (first.write workingDirectory path content).map node? =
      (second.write workingDirectory path content).map node? := by
  have directories : first.isDirectory = second.isDirectory :=
    funext fun place => isDirectory_congr (congrFun same place)
  unfold write
  rw [locateNew_congr same, directories]
  cases second.locateNew workingDirectory path with
  | error error => cases error <;> rfl
  | ok found =>
      obtain ⟨place, name⟩ := found
      simp only
      split
      · rfl
      · exact congrArg Except.ok (node?_insert_congr same (by simp) (.file content))

/-! ## Actions -/

/-- An action that answers the same in trees with the same nodes, and leaves trees with the
same nodes behind. -/
def Respects {α : Type} (action : StateM Tree α) : Prop :=
  ∀ first second : Tree, first.node? = second.node? →
    (action.run first).1 = (action.run second).1 ∧
      (action.run first).2.node? = (action.run second).2.node?

theorem composes_respects : Composes Respects := by
  refine ⟨fun value first second same => ⟨rfl, same⟩, ?_⟩
  intro α β action following respects rest first second same
  obtain ⟨answers, between⟩ := respects first second same
  rw [run_bind_state, run_bind_state, answers]
  exact rest _ _ _ between

theorem respects_change {step : Tree → Except FileError Tree}
    (congr : ∀ first second : Tree, first.node? = second.node? →
      (step first).map node? = (step second).map node?) : Respects (change step) := by
  intro first second same
  have outcome := congr first second same
  rw [run_change_eq, run_change_eq]
  cases firstStep : step first with
  | error error =>
      cases secondStep : step second with
      | error other =>
          rw [firstStep, secondStep] at outcome
          cases outcome
          exact ⟨rfl, same⟩
      | ok made =>
          rw [firstStep, secondStep] at outcome
          cases outcome
  | ok made =>
      cases secondStep : step second with
      | error error =>
          rw [firstStep, secondStep] at outcome
          cases outcome
      | ok other =>
          rw [firstStep, secondStep] at outcome
          exact ⟨rfl, Except.ok.inj outcome⟩

theorem respects_makeDirectory (workingDirectory : Place) (path : Path) :
    Respects ((system workingDirectory).makeDirectory path) :=
  respects_change fun _ _ => makeDirectory_congr

theorem respects_write (workingDirectory : Place) (path : Path) (content : ByteArray) :
    Respects ((system workingDirectory).write path content) :=
  respects_change fun _ _ same => write_congr same content

theorem run_isDirectory_congr (agree : AgreeAlong workingDirectory path first second) :
    (((system workingDirectory).isDirectory path).run first).1 =
      (((system workingDirectory).isDirectory path).run second).1 := by
  have asked (tree : Tree) : ((system workingDirectory).kind path).run tree =
      (tree.kind workingDirectory path, tree) := rfl
  unfold System.isDirectory
  rw [run_bind_state, run_bind_state, asked, asked, agree.kind]
  rfl

theorem respects_isDirectory (workingDirectory : Place) (path : Path) :
    Respects ((system workingDirectory).isDirectory path) :=
  fun _ _ same => ⟨run_isDirectory_congr (agreeAlong_of_node?_eq same), same⟩

theorem respects_makeDirectories (workingDirectory : Place) (path : Path) :
    Respects ((system workingDirectory).makeDirectories path) :=
  composes_respects.makeDirectoryIn (fun _ _ => respects_isDirectory _ _)
    fun _ _ => respects_makeDirectory _ _

end WikiPress.Files.Tree
