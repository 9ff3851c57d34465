import WikiPress.Proofs.Site.Clearing

/-!
# Located sites

The paths of a site that was located are resolved: its input is a directory, given by the
names that lead there, and its output is a root if no `..` was kept.  Where a site stands in
one tree it stands in every tree with the same sources.
-/

namespace WikiPress.Files.Path

/-- Without `.` between its slashes a path is walked along by its parts. -/
theorem rawParts_eq_parts {path : Path} (noHere : "." ∉ rawParts path) :
    rawParts path = parts path := by
  refine (List.filter_eq_self.mpr fun part member => ?_).symm
  have differs : part ≠ "." := fun here => noHere (here ▸ member)
  simpa using differs

theorem here_not_mem_rawParts_ofParts {named : List String}
    (isPart : ∀ part ∈ named, IsPart part) : "." ∉ rawParts (ofParts named) := by
  rw [rawParts_ofParts isPart]
  exact fun here => (isPart _ here).ne_here rfl

theorem here_not_mem_rawParts_join {path : Path} {name : String} (noHere : "." ∉ rawParts path)
    (isPart : IsPart name) : "." ∉ rawParts (join path name) := by
  rw [rawParts_join (isAbsolute_of_isPart isPart), rawParts_of_isPart isPart]
  intro here
  rcases List.mem_append.mp here with within | last
  · exact noHere within
  · exact isPart.ne_here (List.mem_singleton.mp last).symm

end WikiPress.Files.Path

namespace WikiPress.Site

open Files Files.Tree

variable {workingDirectory : Place} {tree : Tree} {site : Site}

/-! ## The output -/

theorem here_not_mem_placeOfMissing (tree : Tree) {reversed : List String}
    (isPart : ∀ part ∈ reversed, Path.IsPart part) :
    "." ∉ Path.rawParts ((placeOfMissing (system workingDirectory) reversed).run tree).1 := by
  induction reversed with
  | nil => exact Path.here_not_mem_rawParts_ofParts nofun
  | cons name above ih =>
      obtain ⟨first, others⟩ := List.forall_mem_cons.mp isPart
      unfold placeOfMissing
      split
      · exact Path.here_not_mem_rawParts_ofParts fun part member =>
          isPart part (List.mem_reverse.mp member)
      · rw [run_bind_state, run_canonical]
        cases canonical : tree.canonical workingDirectory (Path.ofParts above.reverse) with
        | ok directory =>
            have abovePart : ∀ part ∈ above.reverse, Path.IsPart part := fun part member =>
              others part (List.mem_reverse.mp member)
            have directoryEq := (of_canonical_eq_ok canonical).2
            rw [writtenPlace_ofParts abovePart] at directoryEq
            refine Path.here_not_mem_rawParts_join ?_ first
            rw [directoryEq]
            refine Path.here_not_mem_rawParts_ofParts fun name member =>
              (Path.isName_of_mem_resolve (by simp) ?_ name member).toIsPart
            intro part member
            exact ⟨(abovePart part member).ne_empty, (abovePart part member).noSlash⟩
        | error error => exact Path.here_not_mem_rawParts_join (ih others) first

theorem here_not_mem_absolute {path absolute : Path}
    (made : Path.absolute? (Path.ofParts workingDirectory) path = some absolute) :
    "." ∉ Path.rawParts absolute := by
  unfold Path.absolute? at made
  split at made
  · cases made
  · cases made
    generalize startEq : (if Path.isAbsolute path then []
      else Path.parts (Path.ofParts workingDirectory)) = start
    have normal : "." ∉ Path.rawParts (Path.ofParts (start ++ Path.parts path)) := by
      refine Path.here_not_mem_rawParts_ofParts fun part member => ?_
      rcases List.mem_append.mp member with fromStart | fromPath
      · rw [← startEq] at fromStart
        split at fromStart
        · cases fromStart
        · exact Path.isPart_of_mem_parts fromStart
      · exact Path.isPart_of_mem_parts fromPath
    split
    · rwa [Path.rawParts_closed]
    · exact normal

/-- No `.` is kept in an output path. -/
theorem here_not_mem_placeOfOutput (ordinary : ∀ name ∈ workingDirectory, Path.IsName name)
    {output place : Path}
    (answer : ((placeOfOutput (system workingDirectory) output).run tree).1 = .ok place) :
    "." ∉ Path.rawParts place := by
  unfold placeOfOutput at answer
  rw [run_bind_state, run_canonical] at answer
  cases canonical : tree.canonical workingDirectory output with
  | ok directory =>
      rw [canonical] at answer
      cases answer
      rw [(of_canonical_eq_ok canonical).2]
      exact Path.here_not_mem_rawParts_ofParts fun name member =>
        (isName_of_mem_writtenPlace ordinary output name member).toIsPart
  | error error =>
      rw [canonical] at answer
      simp only at answer
      rw [run_bind_state, run_workingDirectory] at answer
      cases made : Path.absolute? (Path.ofParts workingDirectory) output with
      | none =>
          rw [made] at answer
          cases answer
      | some absolute =>
          rw [made] at answer
          simp only at answer
          split at answer
          · cases answer
            exact here_not_mem_absolute made
          · cases answer
            exact here_not_mem_placeOfMissing tree fun part member =>
              Path.isPart_of_mem_parts (List.mem_reverse.mp member)

/-! ## Standing in a tree -/

/-- A site stands in a tree when its input is a directory there and its output, a root, does
not hold the input. -/
structure Stands (workingDirectory : Place) (tree : Tree) (site : Site) : Prop where
  input : IsRoot site.input
  output : IsRoot site.output
  located : tree.locate workingDirectory site.input = .ok (Path.parts site.input)
  directory : tree.isDirectory (Path.parts site.input) = true
  apart : ¬ Path.parts site.output <+: Path.parts site.input

theorem isRoot_ofParts {named : List String} (isName : ∀ name ∈ named, Path.IsName name) :
    IsRoot (Path.ofParts named) :=
  ⟨.ofParts isName, Path.rawParts_eq_parts (Path.here_not_mem_rawParts_ofParts fun name member =>
    (isName name member).toIsPart)⟩

/-- A site that was located stands there, if no `..` was kept in its output. -/
theorem stands_of_locate (ordinary : ∀ name ∈ workingDirectory, Path.IsName name)
    {configFile : Option Path} {input output : Path}
    (located : ((locate (system workingDirectory) configFile input output).run tree).1 = .ok site)
    (noAbove : ".." ∉ Path.parts site.output) : Stands workingDirectory tree site := by
  obtain ⟨_, inputEq, leadsTo, apart⟩ := of_locate_eq_ok ordinary located
  have inputRoot : IsRoot site.input := by
    rw [inputEq]
    exact isRoot_ofParts (isName_of_mem_writtenPlace ordinary input)
  have inputParts : Path.parts site.input = writtenPlace workingDirectory input := by
    rw [inputEq]
    exact Path.parts_ofParts fun name member =>
      (isName_of_mem_writtenPlace ordinary input name member).toIsPart
  unfold locate at located
  rw [run_bind_state, run_canonical] at located
  cases canonical : tree.canonical workingDirectory input with
  | error error =>
      rw [canonical] at located
      cases located
  | ok inputPath =>
      rw [canonical] at located
      simp only at located
      rw [run_bind_state] at located
      split at located
      · cases located
      · rename_i looked
        rw [run_bind_state] at located
        split at located
        · cases located
        · rename_i outputPath answer
          split at located
          · cases located
          · cases located
            obtain ⟨place, inputLocated, directory⟩ :=
              isDirectory_of_run (by simpa using looked)
            have placeEq : place = Path.parts inputPath :=
              (locate_eq_resolve inputLocated).trans
                (inputRoot.writtenPlace_eq workingDirectory)
            rw [placeEq] at inputLocated directory
            refine ⟨inputRoot, ⟨⟨leadsTo.absolute, ?_⟩, ?_⟩, inputLocated, directory, ?_⟩
            · intro name member
              exact ⟨Path.isPart_of_mem_parts member, fun above => noAbove (above ▸ member)⟩
            · exact Path.rawParts_eq_parts (here_not_mem_placeOfOutput ordinary answer)
            · rwa [inputParts]

end WikiPress.Site
