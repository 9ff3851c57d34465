import WikiPress.Proofs.Compilation.OutputFiles
import WikiPress.Proofs.Site.Clearing

/-!
# Publishing again

An edition is published into a directory that has been cleared, so what the output holds
afterwards is told by the edition.  Nothing outside of the output is touched, whether the
publication succeeds or not, and publishing an edition a second time leaves the output as
it was.
-/

namespace WikiPress.Site

open Files Files.Tree Compilation

variable {workingDirectory : Place} {root : Path} {tree : Tree} {edition : Edition}

/-! ## Actions one after the other -/

theorem runAll_of_composes {holds : {α : Type} → StateM Tree α → Prop} (composes : Composes holds)
    {actions : List (StateM Tree (Except SaveError Unit))}
    (all : ∀ action ∈ actions, holds action) : holds (runAll actions) := by
  induction actions with
  | nil => exact composes.answer _
  | cons action actions ih =>
      obtain ⟨first, others⟩ := List.forall_mem_cons.mp all
      unfold runAll
      apply composes.chain first
      rintro (error | _)
      · exact composes.answer _
      · exact ih others

/-- The actions that save the files of an edition. -/
def savings (saver : Saver (StateM Tree)) (edition : Edition) :
    List (StateM Tree (Except SaveError Unit)) :=
  (edition.documents.map fun (path, html) => saver.save path html) ++
    edition.assets.map fun (path, content) => saver.saveBinary path content

/-- What is true of writing below a root is true of saving an edition there. -/
theorem savings_of_composes {holds : {α : Type} → StateM Tree α → Prop} (composes : Composes holds)
    (writes : ∀ file ∈ edition.files,
      holds (Saver.writeBelow (system workingDirectory) root file.1 file.2)) :
    holds (runAll (savings (Saver.ofDirectory (system workingDirectory) root) edition)) := by
  have saves (path : Path) (content : ByteArray)
      (written : holds (Saver.writeBelow (system workingDirectory) root path content)) :
      holds (do
        let outcome ← Saver.writeBelow (system workingDirectory) root path content
        pure (outcome.mapError (SaveError.unwritable path))) :=
    composes.chain written fun _ => composes.answer _
  apply runAll_of_composes composes
  intro action member
  rcases List.mem_append.mp member with isPage | isAsset
  · obtain ⟨document, documentMember, rfl⟩ := List.mem_map.mp isPage
    have isFile : (document.1, document.2.toUTF8) ∈ edition.files :=
      List.mem_append_left _ (List.mem_map.mpr ⟨document, documentMember, rfl⟩)
    have written := writes (document.1, document.2.toUTF8) isFile
    exact saves document.1 document.2.toUTF8 written
  · obtain ⟨asset, assetMember, rfl⟩ := List.mem_map.mp isAsset
    have isFile : asset ∈ edition.files := List.mem_append_right _ assetMember
    exact saves asset.1 asset.2 (writes _ isFile)

theorem respects_savings (workingDirectory : Place) (root : Path) (edition : Edition) :
    Respects (runAll (savings (Saver.ofDirectory (system workingDirectory) root) edition)) := by
  apply savings_of_composes composes_respects
  intro file _
  exact composes_respects.writeBelow (fun parent _ => respects_makeDirectories _ parent)
    (respects_write _ _ _)

theorem worksIn_savings (workingDirectory : Place) (isRoot : IsRoot root) (plain : edition.Plain) :
    WorksIn (Path.parts root)
      (runAll (savings (Saver.ofDirectory (system workingDirectory) root) edition)) := by
  apply savings_of_composes (composes_worksIn _)
  intro file member
  apply worksIn_writeBelow isRoot.toIsDirect
  rcases List.mem_append.mp member with isPage | isAsset
  · exact plain.page file isPage
  · exact plain.asset file isAsset

/-! ## Publishing -/

/-- A publication is told by what clearing the root answers. -/
theorem run_publish (workingDirectory : Place) (root : Path) (edition : Edition) (tree : Tree) :
    (publish (Saver.ofDirectory (system workingDirectory) root) edition).run tree =
      match (Saver.recreateDirectory (system workingDirectory) root).run tree with
      | (.error error, after) => (.error (.unwritable root error), after)
      | (.ok (), after) =>
        (runAll (savings (Saver.ofDirectory (system workingDirectory) root) edition)).run
          after := by
  have asked : (Saver.ofDirectory (system workingDirectory) root).recreate.run tree =
      (((Saver.recreateDirectory (system workingDirectory) root).run tree).1.mapError
        (SaveError.unwritable root),
      ((Saver.recreateDirectory (system workingDirectory) root).run tree).2) := rfl
  unfold publish publication
  rw [List.cons_append, runAll, run_bind_state, asked]
  rcases (Saver.recreateDirectory (system workingDirectory) root).run tree with
    ⟨_ | _, after⟩ <;> rfl

/-- Publishing answers the same, and leaves the same nodes, whatever lay in the output. -/
theorem run_publish_congr {first second : Tree} (isRoot : IsRoot root)
    (firstRoom : HasRoom root first) (secondRoom : HasRoom root second)
    (same : SameOutside (Path.parts root) first second) :
    ((publish (Saver.ofDirectory (system workingDirectory) root) edition).run first).1 =
        ((publish (Saver.ofDirectory (system workingDirectory) root) edition).run second).1 ∧
      (((publish (Saver.ofDirectory (system workingDirectory) root) edition).run first).1 =
          .ok () →
        ((publish (Saver.ofDirectory (system workingDirectory) root) edition).run first).2.node? =
          ((publish (Saver.ofDirectory (system workingDirectory) root) edition).run
            second).2.node?) := by
  obtain ⟨answers, nodes⟩ :=
    run_recreateDirectory_congr workingDirectory isRoot firstRoom secondRoom same
  rw [run_publish, run_publish]
  generalize (Saver.recreateDirectory (system workingDirectory) root).run first = firstRun
    at answers nodes
  generalize (Saver.recreateDirectory (system workingDirectory) root).run second = secondRun
    at answers nodes
  rcases firstRun with ⟨answer, firstAfter⟩
  rcases secondRun with ⟨_, secondAfter⟩
  cases answers
  cases answer with
  | error error => exact ⟨rfl, nofun⟩
  | ok _ =>
      obtain ⟨saved, left⟩ :=
        respects_savings workingDirectory root edition firstAfter secondAfter (nodes rfl)
      exact ⟨saved, fun _ => left⟩

/-- No file outside of the output is touched by a publication, even if it fails. -/
theorem file?_run_publish (isRoot : IsRoot root) (room : HasRoom root tree)
    (plain : edition.Plain) {place : Place} (outside : ¬ Path.parts root <+: place) :
    ((publish (Saver.ofDirectory (system workingDirectory) root) edition).run tree).2.file? place =
      tree.file? place := by
  have clearing := file?_run_recreateDirectory workingDirectory isRoot room outside
  rw [run_publish]
  rcases cleared : (Saver.recreateDirectory (system workingDirectory) root).run tree with
    ⟨error | _, after⟩
  · rw [cleared] at clearing
    exact clearing
  · rw [cleared] at clearing
    have isCleared := isCleared_of_run_recreateDirectory isRoot room cleared
    have changed := worksIn_savings workingDirectory isRoot plain after isCleared.fileTree
      isCleared.directory
    exact (changed.outside.file?_eq outside).trans clearing

theorem exists_cleared_of_run_publish {after : Tree} (isRoot : IsRoot root)
    (room : HasRoom root tree) (plain : edition.Plain)
    (published : (publish (Saver.ofDirectory (system workingDirectory) root) edition).run tree =
      (.ok (), after)) :
    ∃ cleared, IsCleared root tree cleared ∧ ChangedIn (Path.parts root) cleared after ∧
      (Saver.recreateDirectory (system workingDirectory) root).run tree = (.ok (), cleared) ∧
      (runAll (savings (Saver.ofDirectory (system workingDirectory) root) edition)).run cleared =
        (.ok (), after) := by
  rw [run_publish] at published
  rcases recreated : (Saver.recreateDirectory (system workingDirectory) root).run tree with
    ⟨error | _, cleared⟩
  · rw [recreated] at published
    cases published
  · rw [recreated] at published
    have isCleared := isCleared_of_run_recreateDirectory isRoot room recreated
    have changed := worksIn_savings workingDirectory isRoot plain cleared isCleared.fileTree
      isCleared.directory
    simp only at published
    rw [published] at changed
    exact ⟨cleared, isCleared, changed, rfl, published⟩

/-- Publishing again leaves what was there. -/
theorem run_publish_again {after : Tree} (isRoot : IsRoot root) (nonroot : Path.parts root ≠ [])
    (room : HasRoom root tree) (plain : edition.Plain)
    (published : (publish (Saver.ofDirectory (system workingDirectory) root) edition).run tree =
      (.ok (), after)) :
    HasRoom root after ∧ SameSources (Path.parts root) tree after ∧
      ∃ again, (publish (Saver.ofDirectory (system workingDirectory) root) edition).run after =
        (.ok (), again) ∧ again.node? = after.node? := by
  obtain ⟨cleared, isCleared, changed, recreated, saved⟩ :=
    exists_cleared_of_run_publish isRoot room plain published
  have checked : checkPath root = .ok () := by
    cases checked : checkPath root with
    | ok _ => rfl
    | error error =>
        rw [run_recreateDirectory_of_error isRoot.ne_empty checked] at recreated
        cases recreated
  have afterRoom : HasRoom root after :=
    ⟨changed.fileTree, .inr (isDirectory_iff.mp changed.directory)⟩
  have clearedRoom : HasRoom root cleared :=
    ⟨isCleared.fileTree, .inr (isDirectory_iff.mp isCleared.directory)⟩
  refine ⟨afterRoom, ?_, ?_⟩
  · intro place outside
    rw [changed.outside place outside]
    exact isCleared.outside place outside
  · -- The output that was published differs from the cleared one inside alone, and clearing
    -- the cleared one changes nothing.
    obtain ⟨clearedAgain, clears, clearedNodes⟩ :=
      isCleared.run_again workingDirectory isRoot checked nonroot
    obtain ⟨answers, nodes⟩ := run_recreateDirectory_congr workingDirectory isRoot clearedRoom
      afterRoom changed.outside.symm
    rw [clears] at answers nodes
    rcases afterRun : (Saver.recreateDirectory (system workingDirectory) root).run after with
      ⟨answer, afterCleared⟩
    rw [afterRun] at answers nodes
    cases answers
    have sameNodes : cleared.node? = afterCleared.node? := clearedNodes.symm.trans (nodes rfl)
    obtain ⟨savedAgain, left⟩ :=
      respects_savings workingDirectory root edition cleared afterCleared sameNodes
    rw [saved] at savedAgain left
    refine ⟨_, ?_, left.symm⟩
    rw [run_publish, afterRun]
    exact Prod.ext savedAgain.symm rfl

end WikiPress.Site
