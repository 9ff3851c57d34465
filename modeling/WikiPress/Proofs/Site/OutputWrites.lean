import WikiPress.Proofs.Files.TreeFiles
import WikiPress.Proofs.Site.OutputPlace

/-!
# What a saver does to a tree

Clearing the output takes away the files below the place that its path leads to, if it
leads anywhere; saving a file puts it at the place that its path leads to when nothing is
looked up, below the output.  Nothing else changes but that directories are made.
-/

namespace WikiPress.Site

open Files Files.Tree

variable {workingDirectory : Place} {before after : Tree} {root path : Path}

/-! ## Clearing -/

theorem run_present_eq_true_iff :
    (((system workingDirectory).present path).run before).1 = true ↔
      ∃ place, before.locate workingDirectory path = .ok place := by
  have asked : ((system workingDirectory).kind path).run before =
      (before.kind workingDirectory path, before) := rfl
  unfold System.present
  rw [run_bind_state, asked]
  unfold Tree.kind
  cases before.locate workingDirectory path with
  | error error => exact iff_of_false Bool.false_ne_true (by rintro ⟨place, ⟨⟩⟩)
  | ok place => exact iff_of_true rfl ⟨place, rfl⟩

/-- When an output has been cleared, its files are gone, if it was present. -/
theorem files_of_recreate
    (recreated : (Saver.ofDirectory (system workingDirectory) root).recreate.run before =
      (.ok (), after)) :
    (∃ place, before.locate workingDirectory root = .ok place ∧
      ∀ other, after.file? other = if place <+: other then none else before.file? other) ∨
    ((∀ place, before.locate workingDirectory root ≠ .ok place) ∧
      after.file? = before.file?) := by
  have made := recreateDirectory_of_recreate recreated
  unfold Saver.recreateDirectory at made
  rw [run_bind_state] at made
  simp only at made
  split at made
  · rename_i present
    obtain ⟨place, located⟩ := run_present_eq_true_iff.mp present
    have unchanged : (((system workingDirectory).present root).run before).2 = before := rfl
    rw [run_bind_state, unchanged] at made
    split at made
    · cases made
    · rename_i answer
      obtain ⟨_, again, _, erased⟩ := of_removeDirectory (of_run_change (Prod.ext answer rfl))
      cases located.symm.trans again
      have gains := onlyMakes_makeDirectories workingDirectory root (before.eraseBelow place)
      have last : (((system workingDirectory).makeDirectories root).run
          (before.eraseBelow place)).2 = after := by
        rw [← erased]
        exact congrArg Prod.snd made
      rw [last] at gains
      refine .inl ⟨place, located, fun other => ?_⟩
      rw [gains.file?_eq, file?_eraseBelow]
  · -- A path that led nowhere may still lead to a directory when those above it have been
    -- made, for it can hold a parent step; nothing was removed there.
    rename_i absent
    have gains := onlyMakes_makeDirectories workingDirectory root before
    have last : (((system workingDirectory).makeDirectories root).run before).2 = after :=
      congrArg Prod.snd made
    rw [last] at gains
    refine .inr ⟨fun place located => ?_, gains.file?_eq⟩
    exact absent (run_present_eq_true_iff.mpr ⟨place, located⟩)

/-- Below an output that has been cleared lie the files that lay there before if its path
led nowhere, and none otherwise. -/
theorem file?_of_recreate
    (recreated : (Saver.ofDirectory (system workingDirectory) root).recreate.run before =
      (.ok (), after)) (names : Place) (content : ByteArray) :
    after.file? (writtenPlace workingDirectory root ++ names) = some content ↔
      (∀ place, before.locate workingDirectory root ≠ .ok place) ∧
        before.file? (writtenPlace workingDirectory root ++ names) = some content := by
  rcases files_of_recreate recreated with ⟨place, located, files⟩ | ⟨absent, files⟩
  · have placeEq : place = writtenPlace workingDirectory root := locate_eq_resolve located
    rw [files, placeEq, if_pos (List.prefix_append _ _)]
    constructor
    · exact nofun
    · rintro ⟨absent, _⟩
      exact absurd located (absent place)
  · rw [files]
    exact (and_iff_right absent).symm

/-! ## Saving -/

theorem files_of_writeBelow {content : ByteArray}
    (succeeded : (Saver.writeBelow (system workingDirectory) root path content).run before =
      (.ok (), after)) :
    before.Grows after ∧
      after.file? = Function.update before.file?
        (writtenPlace workingDirectory (Path.join root path)) (some content) := by
  have written : ∃ made, before.GainsDirectories made ∧
      made.write workingDirectory (Path.join root path) content = .ok after := by
    unfold Saver.writeBelow at succeeded
    simp only at succeeded
    split at succeeded
    · rename_i parent _
      rw [run_bind_state] at succeeded
      split at succeeded
      · cases succeeded
      · exact ⟨_, onlyMakes_makeDirectories workingDirectory parent before,
          of_run_change succeeded⟩
    · exact ⟨before, .refl before, of_run_change succeeded⟩
  obtain ⟨made, gains, write⟩ := written
  obtain ⟨grows, files⟩ := of_write write
  refine ⟨gains.toGrows.trans grows, ?_⟩
  rw [files, gains.file?_eq]
  rfl

/-- A file that has been saved lies where its path leads, below the output. -/
theorem files_of_saveBinary {content : ByteArray}
    (succeeded : ((Saver.ofDirectory (system workingDirectory) root).saveBinary path
      content).run before = (.ok (), after)) :
    before.Grows after ∧
      after.file? = Function.update before.file?
        (writtenPlace workingDirectory (Path.join root path)) (some content) :=
  files_of_writeBelow (run_of_mapError succeeded)

theorem files_of_save {text : String}
    (succeeded : ((Saver.ofDirectory (system workingDirectory) root).save path text).run before =
      (.ok (), after)) :
    before.Grows after ∧
      after.file? = Function.update before.file?
        (writtenPlace workingDirectory (Path.join root path)) (some text.toUTF8) :=
  files_of_writeBelow (run_of_mapError succeeded)

/-- A plain path leads below the output, by its parts. -/
theorem writtenPlace_join (plain : Path.IsPlain path) :
    writtenPlace workingDirectory (Path.join root path) =
      writtenPlace workingDirectory root ++ Path.parts path := by
  unfold writtenPlace startOf
  rw [Path.isAbsolute_join plain.relative, Path.parts_join plain.relative, Path.resolve_append,
    Path.resolve_of_isName _ plain.isName]

end WikiPress.Site
