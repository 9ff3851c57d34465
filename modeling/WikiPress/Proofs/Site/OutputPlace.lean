import Mathlib.Tactic.ByContra
import WikiPress.Proofs.Files.TreeWalk
import WikiPress.Site

/-!
# Where the output of a site is put

The output path of a site is resolved as far as it is present; what is missing is kept
as it was written.  When the output has been cleared, its path leads to where it
resolves to without a look at the tree, and this is neither the input nor a directory
above it, unless a `..` was kept.
-/

namespace WikiPress.Site

open Files

variable {workingDirectory : Place} {tree : Tree}

/-- Where a path leads from a working directory when nothing is looked up. -/
def writtenPlace (workingDirectory : Place) (path : Path) : Place :=
  Path.resolve (Tree.startOf workingDirectory path) (Path.parts path)

/-- A path whose parts, read from the root, lead to a place. -/
structure LeadsTo (place : Place) (path : Path) : Prop where
  absolute : Path.isAbsolute path = true
  resolve_eq : Path.resolve [] (Path.parts path) = place

theorem leadsTo_ofParts {place : Place} (isName : ∀ name ∈ place, Path.IsName name) :
    LeadsTo place (Path.ofParts place) := by
  constructor
  · exact Path.isAbsolute_ofParts place
  · rw [Path.parts_ofParts fun name member => (isName name member).toIsPart,
      Path.resolve_of_isName [] isName, List.nil_append]

theorem LeadsTo.join {place : Place} {path : Path} (leadsTo : LeadsTo place path)
    {name : String} (isName : Path.IsName name) :
    LeadsTo (place ++ [name]) (Path.join path name) := by
  constructor
  · rw [Path.isAbsolute_join (Path.isAbsolute_of_isPart isName.toIsPart)]
    exact leadsTo.absolute
  · rw [Path.parts_join (Path.isAbsolute_of_isPart isName.toIsPart),
      Path.parts_of_isPart isName.toIsPart, Path.resolve_append, leadsTo.resolve_eq]
    exact Path.resolve_of_isName place (by simpa using isName)

theorem writtenPlace_ofParts {named : List String}
    (isPart : ∀ part ∈ named, Path.IsPart part) :
    writtenPlace workingDirectory (Path.ofParts named) = Path.resolve [] named := by
  unfold writtenPlace Tree.startOf
  rw [if_pos (Path.isAbsolute_ofParts named), Path.parts_ofParts isPart]

/-- What is present is found at the place that its path leads to. -/
theorem of_canonical_eq_ok {path found : Path}
    (canonical : tree.canonical workingDirectory path = .ok found) :
    tree.locate workingDirectory path = .ok (writtenPlace workingDirectory path) ∧
      found = Path.ofParts (writtenPlace workingDirectory path) := by
  unfold Tree.canonical at canonical
  cases located : tree.locate workingDirectory path with
  | error error =>
      rw [located] at canonical
      cases canonical
  | ok place =>
      rw [located] at canonical
      cases canonical
      rw [Tree.locate_eq_resolve located]
      exact ⟨rfl, rfl⟩

/-! ## The resolved output -/

theorem leadsTo_placeOfMissing (workingDirectory : Place) (tree : Tree) {reversed : List String}
    (isPart : ∀ part ∈ reversed, Path.IsPart part) :
    ∃ place, (placeOfMissing (Tree.system workingDirectory) reversed).run tree = (place, tree) ∧
      LeadsTo (Path.resolve [] reversed.reverse) place := by
  induction reversed with
  | nil => exact ⟨_, rfl, Path.isAbsolute_ofParts [], rfl⟩
  | cons name above ih =>
      have abovePart : ∀ part ∈ above.reverse, Path.IsPart part := fun part member =>
        isPart part (List.mem_cons_of_mem name (List.mem_reverse.mp member))
      unfold placeOfMissing
      split
      · refine ⟨_, rfl, Path.isAbsolute_ofParts _, ?_⟩
        rw [Path.parts_ofParts fun part member => isPart part (List.mem_reverse.mp member)]
      · rename_i notAbove
        have isName : Path.IsName name := ⟨isPart name List.mem_cons_self, notAbove⟩
        have resolved : Path.resolve [] (name :: above).reverse =
            Path.resolve [] above.reverse ++ [name] := by
          rw [List.reverse_cons, Path.resolve_append]
          exact Path.resolve_of_isName _ (by simpa using isName)
        rw [resolved, Tree.run_bind_state, Tree.run_canonical]
        cases canonical : tree.canonical workingDirectory (Path.ofParts above.reverse) with
        | ok directory =>
            have directoryEq := (of_canonical_eq_ok canonical).2
            rw [writtenPlace_ofParts abovePart] at directoryEq
            have leadsTo : LeadsTo (Path.resolve [] above.reverse) directory := by
              rw [directoryEq]
              apply leadsTo_ofParts
              apply Path.isName_of_mem_resolve (by simp)
              intro part member
              exact ⟨(abovePart part member).ne_empty, (abovePart part member).noSlash⟩
            exact ⟨Path.join directory name, rfl, leadsTo.join isName⟩
        | error error =>
            obtain ⟨place, run, leadsTo⟩ := ih fun part member =>
              isPart part (List.mem_cons_of_mem name member)
            refine ⟨Path.join place name, ?_, leadsTo.join isName⟩
            rw [Tree.run_bind_state, run]
            rfl

/-- A root that has been cleared was removed, if it was present, and made again. -/
theorem recreateDirectory_of_recreate {root : Path} {before after : Tree}
    (recreated : (Saver.ofDirectory (Tree.system workingDirectory) root).recreate.run before =
      (.ok (), after)) :
    (Saver.recreateDirectory (Tree.system workingDirectory) root).run before =
      (.ok (), after) :=
  Tree.run_of_mapError recreated

/-- A root that has been cleared leads to a directory. -/
theorem isDirectory_of_recreate {root : Path} (nonempty : root ≠ "") {before after : Tree}
    (recreated : (Saver.ofDirectory (Tree.system workingDirectory) root).recreate.run before =
      (.ok (), after)) :
    ∃ place, after.locate workingDirectory root = .ok place ∧ after.isDirectory place = true := by
  have made := recreateDirectory_of_recreate recreated
  unfold Saver.recreateDirectory at made
  rw [Tree.run_bind_state] at made
  simp only at made
  split at made
  all_goals
    rw [Tree.run_bind_state] at made
    split at made
    · cases made
    · exact Tree.isDirectory_of_makeDirectories nonempty made

section Names

variable (ordinary : ∀ name ∈ workingDirectory, Path.IsName name)
include ordinary

theorem isName_of_mem_startOf (path : Path) :
    ∀ name ∈ Tree.startOf workingDirectory path, Path.IsName name := by
  unfold Tree.startOf
  split
  · simp
  · exact ordinary

theorem isName_of_mem_writtenPlace (path : Path) :
    ∀ name ∈ writtenPlace workingDirectory path, Path.IsName name := by
  apply Path.isName_of_mem_resolve (isName_of_mem_startOf ordinary path)
  · intro part member
    have isPart := Path.isPart_of_mem_parts member
    exact ⟨isPart.ne_empty, isPart.noSlash⟩

theorem leadsTo_absolute {path absolute : Path}
    (made : Path.absolute? (Path.ofParts workingDirectory) path = some absolute) :
    LeadsTo (writtenPlace workingDirectory path) absolute := by
  have startEq : (if Path.isAbsolute path then [] else Path.parts (Path.ofParts workingDirectory)) =
      Tree.startOf workingDirectory path := by
    rw [Path.parts_ofParts fun name member => (ordinary name member).toIsPart]
    rfl
  have start : ∀ name ∈ Tree.startOf workingDirectory path, Path.IsName name :=
    isName_of_mem_startOf ordinary path
  have normal : LeadsTo (writtenPlace workingDirectory path)
      (Path.ofParts (Tree.startOf workingDirectory path ++ Path.parts path)) := by
    constructor
    · exact Path.isAbsolute_ofParts _
    · rw [Path.parts_ofParts, Path.resolve_append, Path.resolve_of_isName [] start]
      · rfl
      · intro part member
        rcases List.mem_append.mp member with fromStart | fromPath
        · exact (start part fromStart).toIsPart
        · exact Path.isPart_of_mem_parts fromPath
  unfold Path.absolute? at made
  split at made
  · cases made
  · simp only [startEq, Option.some.injEq] at made
    split at made
    · rw [← made]
      constructor
      · rw [Path.isAbsolute_append (Path.ne_empty_of_isAbsolute normal.absolute)]
        exact normal.absolute
      · rw [Path.parts, Path.rawParts_closed]
        exact normal.resolve_eq
    · rw [← made]
      exact normal

/-- The resolved output leads to where the given path does. -/
theorem leadsTo_placeOfOutput (tree : Tree) (output : Path) :
    ∃ answer, (placeOfOutput (Tree.system workingDirectory) output).run tree = (answer, tree) ∧
      ∀ place, answer = .ok place → LeadsTo (writtenPlace workingDirectory output) place := by
  unfold placeOfOutput
  rw [Tree.run_bind_state, Tree.run_canonical]
  cases canonical : tree.canonical workingDirectory output with
  | ok directory =>
      refine ⟨.ok directory, rfl, ?_⟩
      rintro place ⟨⟩
      rw [(of_canonical_eq_ok canonical).2]
      exact leadsTo_ofParts (isName_of_mem_writtenPlace ordinary output)
  | error error =>
      simp only
      rw [Tree.run_bind_state, Tree.run_workingDirectory]
      cases made : Path.absolute? (Path.ofParts workingDirectory) output with
      | none =>
          refine ⟨_, rfl, ?_⟩
          rintro place ⟨⟩
      | some absolute =>
          have leadsTo := leadsTo_absolute ordinary made
          simp only
          split
          · refine ⟨.ok absolute, rfl, ?_⟩
            rintro place ⟨⟩
            exact leadsTo
          · obtain ⟨place, run, placeLeadsTo⟩ :=
              leadsTo_placeOfMissing workingDirectory tree fun part member =>
                Path.isPart_of_mem_parts (List.mem_reverse.mp member)
            rw [List.reverse_reverse, leadsTo.resolve_eq] at placeLeadsTo
            refine ⟨.ok place, ?_, ?_⟩
            · rw [Tree.run_bind_state, run]
              rfl
            · rintro place ⟨⟩
              exact placeLeadsTo

/-! ## The cleared output -/

/-- The paths of a site that was located: the input is the directory that its path leads
to, and the output does not hold it as written. -/
theorem of_locate_eq_ok {configFile : Option Path} {input output : Path} {site : Site}
    (located : ((locate (Tree.system workingDirectory) configFile input output).run tree).1 =
      .ok site) :
    tree.locate workingDirectory input = .ok (writtenPlace workingDirectory input) ∧
      site.input = Path.ofParts (writtenPlace workingDirectory input) ∧
      LeadsTo (writtenPlace workingDirectory output) site.output ∧
      ¬ Path.parts site.output <+: writtenPlace workingDirectory input := by
  unfold locate at located
  rw [Tree.run_bind_state, Tree.run_canonical] at located
  cases canonical : tree.canonical workingDirectory input with
  | error error =>
      rw [canonical] at located
      cases located
  | ok inputPath =>
      obtain ⟨inputLocated, rfl⟩ := of_canonical_eq_ok canonical
      rw [canonical] at located
      simp only at located
      rw [Tree.run_bind_state] at located
      split at located
      · cases located
      · have unchanged : (((Tree.system workingDirectory).isDirectory
            (Path.ofParts (writtenPlace workingDirectory input))).run tree).2 = tree := rfl
        obtain ⟨answer, run, leadsTo⟩ := leadsTo_placeOfOutput ordinary tree output
        rw [Tree.run_bind_state, unchanged, run] at located
        cases answer with
        | error error => cases located
        | ok outputPath =>
            simp only at located
            split at located
            · cases located
            · rename_i apart
              cases located
              refine ⟨inputLocated, rfl, leadsTo outputPath rfl, ?_⟩
              intro holds
              apply apart
              unfold Path.startsWith
              rw [Path.isAbsolute_ofParts, (leadsTo outputPath rfl).absolute, Path.parts_ofParts
                fun name member => (isName_of_mem_writtenPlace ordinary input name member).toIsPart]
              simpa using holds

/-- The directory that an output path leads to when it has been cleared is the one that
the path given for it leads to when nothing is looked up.  It is the input or holds it
exactly if a `..` was kept in the output path and the path leads there; so the input is
safe whenever no `..` was kept. -/
theorem output_holds_input_iff {configFile : Option Path} {input output : Path} {site : Site}
    (located : ((locate (Tree.system workingDirectory) configFile input output).run tree).1 =
      .ok site)
    {before after : Tree}
    (recreated : (site.saver (Tree.system workingDirectory)).recreate.run before =
      (.ok (), after)) :
    ∃ inputPlace outputPlace,
      tree.locate workingDirectory input = .ok inputPlace ∧
      site.input = Path.ofParts inputPlace ∧
      after.locate workingDirectory site.output = .ok outputPlace ∧
      after.isDirectory outputPlace = true ∧
      outputPlace = writtenPlace workingDirectory output ∧
      (outputPlace <+: inputPlace ↔
        ".." ∈ Path.parts site.output ∧
          Path.resolve [] (Path.parts site.output) <+: inputPlace) := by
  obtain ⟨inputLocated, inputEq, leadsTo, apart⟩ := of_locate_eq_ok ordinary located
  have nonempty : site.output ≠ "" := by
    intro empty
    have absolute := leadsTo.absolute
    rw [empty] at absolute
    cases absolute
  obtain ⟨outputPlace, outputLocated, directory⟩ := isDirectory_of_recreate nonempty recreated
  have outputEq : outputPlace = writtenPlace workingDirectory output := by
    rw [Tree.locate_eq_resolve outputLocated, Tree.startOf, if_pos leadsTo.absolute]
    exact leadsTo.resolve_eq
  refine ⟨writtenPlace workingDirectory input, outputPlace, inputLocated, inputEq,
    outputLocated, directory, outputEq, ?_⟩
  rw [leadsTo.resolve_eq, outputEq]
  constructor
  · intro holds
    refine ⟨?_, holds⟩
    by_contra noAbove
    have isName : ∀ name ∈ Path.parts site.output, Path.IsName name := by
      intro name member
      refine ⟨Path.isPart_of_mem_parts member, ?_⟩
      rintro rfl
      exact noAbove member
    have resolved := leadsTo.resolve_eq
    rw [Path.resolve_of_isName [] isName, List.nil_append] at resolved
    rw [← resolved] at holds
    exact apart holds
  · intro kept
    exact kept.2

end Names

/-- The directory `/home/notes` with one page. -/
def notes : Tree :=
  { nodes := [(["home"], .directory), (["home", "notes"], .directory),
      (["home", "notes", "index.md"], .file ByteArray.empty)] }

/-- The site of `notes` with an output behind a directory that is missing. -/
def notesSite : Site :=
  { input := "/home/notes", output := "/home/notes/draft/.." }

/-- The tree of `notes` with its output cleared. -/
def clearedNotes : Tree :=
  ((notesSite.saver (Tree.system ["home"])).recreate.run notes).2

/-- Behind the missing directory `draft`, a `..` is kept. -/
theorem output_holds_input_iff_notes :
    (∀ name ∈ ["home"], Path.IsName name) ∧
      ((locate (Tree.system ["home"]) none "notes" "notes/draft/..").run notes).1 =
        .ok notesSite ∧
      (notesSite.saver (Tree.system ["home"])).recreate.run notes = (.ok (), clearedNotes) ∧
      ∃ inputPlace outputPlace,
        notes.locate ["home"] "notes" = .ok inputPlace ∧
        clearedNotes.locate ["home"] notesSite.output = .ok outputPlace ∧
        (outputPlace <+: inputPlace ↔ ".." ∈ Path.parts notesSite.output ∧
          Path.resolve [] (Path.parts notesSite.output) <+: inputPlace) := by
  have ordinary : ∀ name ∈ ["home"], Path.IsName name := by
    intro name member
    rw [List.mem_singleton.mp member]
    exact ⟨⟨by decide, by decide, by decide⟩, by decide⟩
  have located : ((locate (Tree.system ["home"]) none "notes" "notes/draft/..").run notes).1 =
      .ok notesSite := rfl
  have recreated : (notesSite.saver (Tree.system ["home"])).recreate.run notes =
      (.ok (), clearedNotes) := rfl
  obtain ⟨inputPlace, outputPlace, inputLocated, _, outputLocated, _, _, holds⟩ :=
    output_holds_input_iff ordinary located recreated
  exact ⟨ordinary, located, recreated, inputPlace, outputPlace, inputLocated, outputLocated,
    holds⟩

/-- A site can be located whose output, when it has been cleared, is its input. -/
theorem cleared_output_is_input_notes :
    ((locate (Tree.system ["home"]) none "notes" "notes/draft/..").run notes).1 =
        .ok notesSite ∧
      (notesSite.saver (Tree.system ["home"])).recreate.run notes = (.ok (), clearedNotes) ∧
      notes.locate ["home"] notesSite.input = .ok ["home", "notes"] ∧
      clearedNotes.locate ["home"] notesSite.output = .ok ["home", "notes"] :=
  ⟨rfl, rfl, rfl, rfl⟩

end WikiPress.Site
