import WikiPress.Proofs.Compilation.OutputFiles
import WikiPress.Proofs.Compilation.Sources
import WikiPress.Proofs.Files.Listing
import WikiPress.Proofs.Site.Location

/-!
# Sources without the output

What a site reads lies outside of its output: the lists leave the output out, so the files
in them do, and the paths that are given by name are asked to.  So a site reads the same in
trees that have the same sources, whatever lies in the output.
-/

namespace WikiPress.Site

open Files Files.Tree

variable {workingDirectory : Place} {out : Place} {path : Path} {first second tree : Tree}

/-! ## Paths that lead outside -/

theorem SameOutside.sameSources (same : SameOutside out first second) :
    SameSources out first second :=
  fun place outside => .inl (same place outside).symm

/-- A path without parent steps that leads neither to a directory nor below it. -/
structure LeadsOutside (workingDirectory : Place) (out : Place) (path : Path) : Prop where
  noAbove : ".." ∉ Path.parts path
  outside : ¬ out <+: writtenPlace workingDirectory path

instance (workingDirectory : Place) (out : Place) (path : Path) :
    Decidable (LeadsOutside workingDirectory out path) :=
  decidable_of_iff (".." ∉ Path.parts path ∧ ¬ out <+: writtenPlace workingDirectory path)
    ⟨fun both => ⟨both.1, both.2⟩, fun leads => ⟨leads.noAbove, leads.outside⟩⟩

/-- All places on the way lie above the one that the path leads to, and so outside. -/
theorem LeadsOutside.onTheWay (leads : LeadsOutside workingDirectory out path)
    {steps : List String} (isPrefix : steps <+: Path.rawParts path) :
    Path.resolve (startOf workingDirectory path) steps <+: writtenPlace workingDirectory path ∧
      ¬ out <+: Path.resolve (startOf workingDirectory path) steps := by
  obtain ⟨rest, split⟩ := isPrefix
  have noAbove : ".." ∉ rest := by
    intro rises
    apply leads.noAbove
    refine List.mem_filter.mpr ⟨?_, by decide⟩
    rw [← split]
    exact List.mem_append_right _ rises
  have above : Path.resolve (startOf workingDirectory path) steps <+:
      writtenPlace workingDirectory path := by
    rw [writtenPlace, Path.resolve_parts, ← split, Path.resolve_append]
    exact prefix_resolve noAbove _
  exact ⟨above, fun inside => leads.outside (inside.trans above)⟩

theorem LeadsOutside.agreeAlong (leads : LeadsOutside workingDirectory out path)
    (same : SameOutside out first second) : AgreeAlong workingDirectory path first second :=
  fun _ isPrefix => same _ (leads.onTheWay isPrefix).2

/-- To what lies outside the way is as it was. -/
theorem LeadsOutside.agreeAlong_of_lies (leads : LeadsOutside workingDirectory out path)
    (fileTree : first.IsFileTree) (sources : SameSources out first second)
    (lies : (first.node? (writtenPlace workingDirectory path)).isSome = true) :
    AgreeAlong workingDirectory path first second := by
  intro steps isPrefix
  obtain ⟨above, outside⟩ := leads.onTheWay isPrefix
  rcases sources _ outside with same | ⟨_, absent, _⟩
  · exact same.symm
  · have present := fileTree.isSome_of_prefix above lies
    rw [absent] at present
    cases present

theorem isSome_of_read {content : ByteArray}
    (read : tree.read workingDirectory path = .ok content) :
    (tree.node? (writtenPlace workingDirectory path)).isSome = true := by
  unfold Tree.read at read
  cases located : tree.locate workingDirectory path with
  | error error =>
      rw [located] at read
      cases read
  | ok place =>
      rw [located] at read
      simp only [Bind.bind, Except.bind] at read
      rw [writtenPlace, ← locate_eq_resolve located]
      split at read
      · rename_i lies
        rw [lies]
        rfl
      · cases read
      · cases read

/-- A file keeps its bytes where directories are made. -/
theorem SameSources.file?_eq (sources : SameSources out first second) {place : Place}
    (outside : ¬ out <+: place) : second.file? place = first.file? place := by
  unfold file?
  rcases sources place outside with same | ⟨_, absent, made⟩
  · rw [same]
  · rw [absent, made]

/-! ## Standing in trees with the same sources -/

variable {site : Site}

theorem Stands.leadsOutside_input (stands : Stands workingDirectory tree site) :
    LeadsOutside workingDirectory (Path.parts site.output) site.input := by
  refine ⟨fun rises => (stands.input.isName _ rises).ne_above rfl, ?_⟩
  rw [stands.input.writtenPlace_eq]
  exact stands.apart

theorem Stands.of_sameSources (stands : Stands workingDirectory first site)
    (fileTree : first.IsFileTree)
    (sources : SameSources (Path.parts site.output) first second) :
    Stands workingDirectory second site := by
  have lies : first.node? (Path.parts site.input) = some .directory :=
    isDirectory_iff.mp stands.directory
  have agree : AgreeAlong workingDirectory site.input first second := by
    refine stands.leadsOutside_input.agreeAlong_of_lies fileTree sources ?_
    rw [stands.input.writtenPlace_eq, lies]
    rfl
  have located : second.locate workingDirectory site.input = .ok (Path.parts site.input) :=
    agree.locate.symm.trans stands.located
  refine ⟨stands.input, stands.output, located, ?_, stands.apart⟩
  rw [isDirectory_iff, ← agree.node? located, lies]

/-! ## Lists -/

/-- What is left out of the lists is the output with all that lies below it. -/
theorem Stands.isExcluded_iff (stands : Stands workingDirectory tree site)
    (names : List String) :
    Loader.isExcluded site.input site.outputInInput?.toList names = true ↔
      Path.parts site.output <+: Path.parts site.input ++ names := by
  unfold Loader.isExcluded outputInInput? Path.relativeTo? Path.startsWith
  rw [stands.input.absolute, stands.output.absolute, beq_self_eq_true, Bool.true_and]
  split
  · rename_i inside
    obtain ⟨rest, split⟩ := List.isPrefixOf_iff_prefix.mp inside
    have restPart : ∀ part ∈ rest, Path.IsPart part := by
      intro part member
      refine (stands.output.isName part ?_).toIsPart
      rw [← split]
      exact List.mem_append_right _ member
    have relative := Path.isAbsolute_intercalate restPart
    rw [← split, List.drop_left]
    simp only [Option.toList_some, List.any_cons, List.any_nil, Bool.or_false]
    rw [Path.isAbsolute_join relative, Path.parts_join relative, Path.parts_intercalate restPart,
      stands.input.absolute, beq_self_eq_true, Bool.true_and, Bool.and_eq_true,
      List.isPrefixOf_iff_prefix, decide_eq_true_eq, List.length_append]
    exact and_iff_left (Nat.le_add_right _ _)
  · rename_i notInside
    refine iff_of_false (by simp) fun below => ?_
    rcases List.prefix_or_prefix_of_prefix below (List.prefix_append _ names) with holds | inside
    · exact stands.apart holds
    · exact notInside (List.isPrefixOf_iff_prefix.mpr inside)

/-- What the loader and the saver of a site answer in a tree. -/
def answers (workingDirectory : Place) (site : Site) (tree : Tree) : Answers := fun call =>
  ((Handler.ofTree workingDirectory site.input site.outputInInput?.toList site.output call).run
    tree).1

theorem answers_glob (tree : Tree) (pattern : String) :
    site.answers workingDirectory tree (.glob pattern) =
      (Glob.parseAll pattern).map fun patterns =>
        Loader.matching patterns site.input site.outputInInput?.toList
          (tree.filesBelow workingDirectory site.input) := by
  unfold answers Handler.ofTree Handler.of Loader.ofDirectory
  simp only
  cases Glob.parseAll pattern <;> rfl

/-- The lists of a site are told by its sources. -/
theorem Stands.answers_glob_congr (stands : Stands workingDirectory first site)
    (firstTree : first.IsFileTree) (secondTree : second.IsFileTree)
    (sources : SameSources (Path.parts site.output) first second) (pattern : String) :
    site.answers workingDirectory second (.glob pattern) =
      site.answers workingDirectory first (.glob pattern) := by
  have secondStands := stands.of_sameSources firstTree sources
  rw [answers_glob, answers_glob]
  congr 1
  funext patterns
  refine Loader.matching_congr fun names kept => ?_
  have outside : ¬ Path.parts site.output <+: Path.parts site.input ++ names := by
    rw [← stands.isExcluded_iff names, kept]
    exact Bool.false_ne_true
  rw [secondTree.mem_filesBelow_iff secondStands.located secondStands.directory,
    firstTree.mem_filesBelow_iff stands.located stands.directory, sources.file?_eq outside]

/-- A file that is listed lies outside of the output. -/
theorem Stands.of_listed (stands : Stands workingDirectory tree site) (fileTree : tree.IsFileTree)
    {pattern : String} {paths : List Path}
    (listed : site.answers workingDirectory tree (.glob pattern) = .ok paths)
    (member : path ∈ paths) :
    LeadsOutside workingDirectory (Path.parts site.output) (Path.join site.input path) ∧
      (tree.node? (writtenPlace workingDirectory (Path.join site.input path))).isSome = true := by
  rw [answers_glob] at listed
  cases parsed : Glob.parseAll pattern with
  | error error =>
      rw [parsed] at listed
      cases listed
  | ok patterns =>
      rw [parsed] at listed
      rw [← Except.ok.inj listed] at member
      obtain ⟨names, below, kept, rfl, _⟩ := Loader.mem_matching.mp member
      obtain ⟨content, lies⟩ :=
        (fileTree.mem_filesBelow_iff stands.located stands.directory).mp below
      have plain : Path.IsPlain ("/".intercalate names) :=
        Path.isPlain_intercalate (fileTree.named.isName_of_mem_filesBelow below)
      have placeEq : writtenPlace workingDirectory (Path.join site.input ("/".intercalate names)) =
          Path.parts site.input ++ names := by
        rw [writtenPlace_join plain, stands.input.writtenPlace_eq, Path.parts_intercalate
          fun name member => (fileTree.named.isName_of_mem_filesBelow below name member).toIsPart]
      have outside : ¬ Path.parts site.output <+: Path.parts site.input ++ names := by
        rw [← stands.isExcluded_iff names, kept]
        exact Bool.false_ne_true
      refine ⟨⟨fun rises => ?_, by rwa [placeEq]⟩, ?_⟩
      · exact ((stands.input.toIsDirect.join plain).isName _ rises).ne_above rfl
      · rw [placeEq]
        exact isSome_of_file? lies

end WikiPress.Site
