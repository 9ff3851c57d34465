import WikiPress.Proofs.Files.Listing
import WikiPress.Proofs.Files.Visits
import WikiPress.Proofs.Glob.Alternatives

/-!
# Listing sources

A loader of a directory lists the files that it comes to when it visits the directory and turns
away from the excluded ones, as far as their paths match an expansion of the pattern.  The list
is in increasing order, so the list of a pattern with groups is made of those of its expansions.
-/

namespace WikiPress

open Files Glob

/-! ## Reading patterns -/

/-- Steps that may fail are made up to the first failure. -/
theorem mapM_except_cases {ε α β : Type} (step : α → Except ε β) (elements : List α) :
    (∃ values, elements.mapM step = .ok values ∧
        List.Forall₂ (fun element value => step element = .ok value) elements values) ∨
      ∃ element ∈ elements, ∃ error, step element = .error error ∧
        elements.mapM step = .error error := by
  induction elements with
  | nil => exact .inl ⟨[], rfl, .nil⟩
  | cons element elements ih =>
      rw [List.mapM_cons]
      cases first : step element with
      | error error => exact .inr ⟨element, List.mem_cons_self, error, first, rfl⟩
      | ok value =>
          rcases ih with ⟨values, others, steps⟩ | ⟨failing, member, error, failed, others⟩
          · rw [others]
            exact .inl ⟨value :: values, rfl, .cons first steps⟩
          · rw [others]
            exact .inr ⟨failing, List.mem_cons_of_mem element member, error, failed, rfl⟩

theorem exists_mem_of_forall₂ {α β : Type} {related : α → β → Prop} {elements : List α}
    {values : List β} (all : List.Forall₂ related elements values) {element : α}
    (member : element ∈ elements) : ∃ value ∈ values, related element value := by
  induction all with
  | nil => cases member
  | cons first _ ih =>
      rcases List.mem_cons.mp member with rfl | later
      · exact ⟨_, List.mem_cons_self, first⟩
      · obtain ⟨value, valueMember, holds⟩ := ih later
        exact ⟨value, List.mem_cons_of_mem _ valueMember, holds⟩

namespace Glob

/-- Whether a path matches one of the patterns that a pattern with groups stands for. -/
def Covers (pattern : String) (path : Path) : Prop :=
  ∃ expansion ∈ expandBraces pattern, ∃ read, Pattern.parse expansion = .ok read ∧
    read.accepts path = true

/-- A pattern is read if all its expansions can be; what is wrong with one of them is told of the
pattern as a whole. -/
theorem parseAll_cases (pattern : String) :
    (∃ patterns, parseAll pattern = .ok patterns ∧
        List.Forall₂ (fun expansion read => Pattern.parse expansion = .ok read)
          (expandBraces pattern) patterns) ∨
      ∃ expansion ∈ expandBraces pattern, ∃ cause, Pattern.parse expansion = .error cause ∧
        parseAll pattern = .error (.badPattern pattern cause) := by
  rcases mapM_except_cases
      (fun expansion => (Pattern.parse expansion).mapError (LoadError.badPattern pattern))
      (expandBraces pattern) with ⟨patterns, all, reads⟩ | ⟨expansion, member, error, failed, all⟩
  · refine .inl ⟨patterns, all, reads.imp fun expansion read => ?_⟩
    cases Pattern.parse expansion <;> intro parsed <;> cases parsed
    rfl
  · refine .inr ⟨expansion, member, ?_⟩
    cases parsed : Pattern.parse expansion with
    | error cause =>
        rw [parsed] at failed
        cases failed
        exact ⟨cause, rfl, all⟩
    | ok read =>
        rw [parsed] at failed
        cases failed

/-- An expansion is read as the one pattern that it is. -/
theorem parseAll_expansion {pattern expansion : String} {read : Pattern}
    (member : expansion ∈ expandBraces pattern) (parsed : Pattern.parse expansion = .ok read) :
    parseAll expansion = .ok [read] := by
  rw [parseAll, expandBraces_eq_singleton (not_holdsGroup_of_mem_expandBraces member),
    List.mapM_cons, parsed]
  rfl

theorem covers_iff {pattern : String} {patterns : List Pattern} {path : Path}
    (reads : List.Forall₂ (fun expansion read => Pattern.parse expansion = .ok read)
      (expandBraces pattern) patterns) :
    Covers pattern path ↔ ∃ read ∈ patterns, read.accepts path = true := by
  constructor
  · rintro ⟨expansion, member, read, parsed, accepted⟩
    obtain ⟨other, otherMember, otherParsed⟩ := exists_mem_of_forall₂ reads member
    cases parsed.symm.trans otherParsed
    exact ⟨read, otherMember, accepted⟩
  · rintro ⟨read, member, accepted⟩
    obtain ⟨expansion, expansionMember, parsed⟩ := exists_mem_of_forall₂ reads.flip member
    exact ⟨expansion, expansionMember, read, parsed, accepted⟩

end Glob

namespace Loader

variable {workingDirectory place : Place} {root : Path} {excluded : List Path} {tree : Tree}

/-! ## Excluded files -/

/-- Whether a visit turns away from an entry: it is one of the excluded paths. -/
def turnsAway (root : Path) (excluded : List Path) (names : List String) : Bool :=
  excluded.any fun directory =>
    let place := Path.join root directory
    Path.isAbsolute place == Path.isAbsolute root && Path.parts place == Path.parts root ++ names

theorem prefix_append_iff {parts start names : List String} :
    (parts <+: start ++ names ∧ start.length ≤ parts.length) ↔
      ∃ above, above <+: names ∧ parts = start ++ above := by
  constructor
  · rintro ⟨begins, long⟩
    obtain ⟨above, rfl⟩ :=
      List.prefix_of_prefix_length_le (List.prefix_append start names) begins long
    exact ⟨above, (List.prefix_append_right_inj start).mp begins, rfl⟩
  · rintro ⟨above, begins, rfl⟩
    exact ⟨(List.prefix_append_right_inj start).mpr begins, by simp⟩

/-- A file is excluded if a visit turns away on the way to it. -/
theorem isExcluded_iff {names : List String} :
    isExcluded root excluded names = true ↔
      ∃ above, above <+: names ∧ turnsAway root excluded above = true := by
  unfold isExcluded turnsAway
  simp only [List.any_eq_true, Bool.and_eq_true, beq_iff_eq, List.isPrefixOf_iff_prefix,
    decide_eq_true_eq, and_assoc, prefix_append_iff]
  constructor
  · rintro ⟨directory, member, sameStart, above, begins, same⟩
    exact ⟨above, begins, directory, member, sameStart, same⟩
  · rintro ⟨above, begins, directory, member, sameStart, same⟩
    exact ⟨directory, member, sameStart, above, begins, same⟩

/-- The files that a loader comes to are those that lie below its root and are not excluded. -/
theorem mem_visit_iff (fileTree : tree.IsFileTree)
    (located : tree.locate workingDirectory root = .ok place) {names : List String} :
    names ∈ tree.visit place (fun above => !turnsAway root excluded above) [] ↔
      names ∈ tree.filesBelow workingDirectory root ∧
        isExcluded root excluded names = false := by
  have allEntered : isExcluded root excluded names = false ↔
      ∀ above, [] <+: above → above <+: names → (!turnsAway root excluded above) = true := by
    rw [← Bool.not_eq_true, isExcluded_iff]
    simp
  rw [fileTree.mem_visit_iff, fileTree.mem_filesBelow_iff_of_locate located, allEntered]
  exact and_iff_right List.nil_prefix

/-- A file may be listed if it lies below the root, but neither at the place of an excluded path
nor below it. -/
def IsSource (workingDirectory : Place) (root : Path) (excluded : List Path) (tree : Tree)
    (names : List String) : Prop :=
  ∃ place content, tree.locate workingDirectory root = .ok place ∧
    tree.file? (place ++ names) = some content ∧
    ∀ directory ∈ excluded, ¬ Path.resolve place (Path.rawParts directory) <+: place ++ names

/-- Paths that lead down from the root. -/
def LeadDown (excluded : List Path) : Prop :=
  ∀ directory ∈ excluded, Path.isAbsolute directory = false ∧ ".." ∉ Path.parts directory

theorem resolve_rawParts {directory : Path} (noAbove : ".." ∉ Path.parts directory)
    (place : Place) :
    Path.resolve place (Path.rawParts directory) = place ++ Path.parts directory := by
  rw [← Path.resolve_parts]
  refine Path.resolve_of_isName place fun name member => ⟨Path.isPart_of_mem_parts member, ?_⟩
  rintro rfl
  exact noAbove member

theorem turnsAway_iff (leadDown : LeadDown excluded) {above : List String} :
    turnsAway root excluded above = true ↔
      ∃ directory ∈ excluded, Path.parts directory = above := by
  unfold turnsAway
  simp only [List.any_eq_true, Bool.and_eq_true, beq_iff_eq]
  refine exists_congr fun directory => and_congr_right fun member => ?_
  have relative := (leadDown directory member).1
  rw [Path.isAbsolute_join relative, Path.parts_join relative, List.append_cancel_left_eq]
  exact and_iff_right rfl

theorem isSource_iff (fileTree : tree.IsFileTree) (leadDown : LeadDown excluded)
    {names : List String} :
    IsSource workingDirectory root excluded tree names ↔
      names ∈ tree.filesBelow workingDirectory root ∧
        isExcluded root excluded names = false := by
  cases located : tree.locate workingDirectory root with
  | error error =>
      have nothing : tree.filesBelow workingDirectory root = [] := by
        unfold Tree.filesBelow
        rw [located]
      simp [IsSource, located, nothing]
  | ok place =>
      have apart : isExcluded root excluded names = false ↔ ∀ directory ∈ excluded,
          ¬ Path.resolve place (Path.rawParts directory) <+: place ++ names := by
        rw [← Bool.not_eq_true, isExcluded_iff]
        constructor
        · intro kept directory member inside
          rw [resolve_rawParts (leadDown directory member).2,
            List.prefix_append_right_inj] at inside
          exact kept ⟨_, inside, (turnsAway_iff leadDown).mpr ⟨directory, member, rfl⟩⟩
        · rintro apart ⟨above, begins, away⟩
          obtain ⟨directory, member, rfl⟩ := (turnsAway_iff leadDown).mp away
          refine apart directory member ?_
          rw [resolve_rawParts (leadDown directory member).2, List.prefix_append_right_inj]
          exact begins
      rw [fileTree.mem_filesBelow_iff_of_locate located, apart, IsSource]
      simp [located]

/-! ## Lists -/

/-- The paths of those files that a loader comes to from a place and that match a pattern, in
increasing order. -/
def visited (patterns : List Pattern) (root : Path) (excluded : List Path) (tree : Tree)
    (place : Place) : List Path :=
  let files := tree.visit place (fun names => !turnsAway root excluded names) []
  dedupSorted
    (((files.map ("/".intercalate ·)).filter fun path =>
      patterns.any (·.accepts path)).mergeSort fun left right => decide (left ≤ right))

theorem matching_filesBelow (fileTree : tree.IsFileTree)
    (located : tree.locate workingDirectory root = .ok place) (patterns : List Pattern) :
    matching patterns root excluded (tree.filesBelow workingDirectory root) =
      visited patterns root excluded tree place := by
  refine eq_of_pairwise_lt (pairwise_matching _) (pairwise_dedupSorted (pairwise_mergeSort _))
    fun path => ?_
  unfold visited
  rw [mem_matching, mem_dedupSorted, List.mem_mergeSort, List.mem_filter, List.mem_map]
  simp only [mem_visit_iff fileTree located]
  constructor
  · rintro ⟨names, below, kept, shown, accepted⟩
    exact ⟨⟨names, ⟨below, kept⟩, shown⟩, accepted⟩
  · rintro ⟨⟨names, ⟨below, kept⟩, shown⟩, accepted⟩
    exact ⟨names, below, kept, shown, accepted⟩

theorem run_glob (tree : Tree) (pattern : String) :
    ((ofDirectory (Tree.system workingDirectory) root excluded).glob pattern).run tree =
      ((parseAll pattern).map fun patterns =>
        matching patterns root excluded (tree.filesBelow workingDirectory root), tree) := by
  unfold ofDirectory
  simp only
  cases parseAll pattern <;> rfl

theorem run_glob_of_mem_expandBraces {pattern expansion : String} {read : Pattern}
    (member : expansion ∈ expandBraces pattern) (parsed : Pattern.parse expansion = .ok read) :
    (((ofDirectory (Tree.system workingDirectory) root excluded).glob expansion).run tree).1 =
      .ok (matching [read] root excluded (tree.filesBelow workingDirectory root)) := by
  rw [run_glob, parseAll_expansion member parsed]
  rfl

theorem mem_matching_iff_exists {patterns : List Pattern} {files : List (List String)}
    {path : Path} :
    path ∈ matching patterns root excluded files ↔
      ∃ read ∈ patterns, path ∈ matching [read] root excluded files := by
  simp only [mem_matching, List.any_eq_true, List.mem_singleton]
  constructor
  · rintro ⟨names, below, kept, shown, read, member, accepted⟩
    exact ⟨read, member, names, below, kept, shown, read, rfl, accepted⟩
  · rintro ⟨_, member, names, below, kept, shown, read, rfl, accepted⟩
    exact ⟨names, below, kept, shown, read, member, accepted⟩

theorem mem_matching_iff_isSource (fileTree : tree.IsFileTree) (leadDown : LeadDown excluded)
    {pattern : String} {patterns : List Pattern}
    (reads : List.Forall₂ (fun expansion read => Pattern.parse expansion = .ok read)
      (expandBraces pattern) patterns) {path : Path} :
    path ∈ matching patterns root excluded (tree.filesBelow workingDirectory root) ↔
      Covers pattern path ∧ ∃ names, IsSource workingDirectory root excluded tree names ∧
        "/".intercalate names = path := by
  rw [mem_matching, covers_iff reads, List.any_eq_true]
  simp only [isSource_iff fileTree leadDown]
  constructor
  · rintro ⟨names, below, kept, shown, accepted⟩
    exact ⟨accepted, names, ⟨below, kept⟩, shown⟩
  · rintro ⟨accepted, names, ⟨below, kept⟩, shown⟩
    exact ⟨names, below, kept, shown, accepted⟩

/-- What a pattern lists is what its expansions list one by one. -/
theorem exists_lists_of_expansions {pattern : String} {patterns : List Pattern}
    (reads : List.Forall₂ (fun expansion read => Pattern.parse expansion = .ok read)
      (expandBraces pattern) patterns) :
    ∃ lists, List.Forall₂ (fun expansion listed =>
        (((ofDirectory (Tree.system workingDirectory) root excluded).glob expansion).run tree).1 =
          .ok listed) (expandBraces pattern) lists ∧
      ∀ path, path ∈ matching patterns root excluded (tree.filesBelow workingDirectory root) ↔
        ∃ listed ∈ lists, path ∈ listed := by
  let listOf (read : Pattern) : List Path :=
    matching [read] root excluded (tree.filesBelow workingDirectory root)
  have members := (List.forall₂_and_left _ _).mpr
    ⟨fun expansion (member : expansion ∈ expandBraces pattern) => member, reads⟩
  refine ⟨patterns.map listOf, ?_, fun path => ?_⟩
  · rw [List.forall₂_map_right_iff]
    exact members.imp fun expansion read ⟨member, readable⟩ =>
      run_glob_of_mem_expandBraces member readable
  · rw [mem_matching_iff_exists]
    simp [listOf]

/-- A loader fails to list files just if an expansion of the pattern cannot be read, and tells of
the pattern as it was given.  Otherwise it lists, in increasing order, the files that may be
listed and match an expansion; so it lists what the expansions list one by one, and what a visit
from the root comes to. -/
theorem glob_lists_matching_sources (workingDirectory : Place) (root : Path)
    (fileTree : tree.IsFileTree) (leadDown : LeadDown excluded) (pattern : String) :
    let listing (pattern : String) :=
      ((ofDirectory (Tree.system workingDirectory) root excluded).glob pattern).run tree
    ((∃ error, (listing pattern).1 = .error error) ↔
        ∃ expansion ∈ expandBraces pattern, ∃ cause, Pattern.parse expansion = .error cause) ∧
      (∀ error, (listing pattern).1 = .error error →
        ∃ expansion ∈ expandBraces pattern, ∃ cause, Pattern.parse expansion = .error cause ∧
          error = .badPattern pattern cause) ∧
      (∀ paths, (listing pattern).1 = .ok paths →
        paths.Pairwise (· < ·) ∧
        (∀ path, path ∈ paths ↔ Covers pattern path ∧
          ∃ names, IsSource workingDirectory root excluded tree names ∧
            "/".intercalate names = path) ∧
        (∃ lists, List.Forall₂ (fun expansion listed => (listing expansion).1 = .ok listed)
            (expandBraces pattern) lists ∧
          ∀ path, path ∈ paths ↔ ∃ listed ∈ lists, path ∈ listed) ∧
        ∀ place, tree.locate workingDirectory root = .ok place →
          ∃ patterns, List.Forall₂ (fun expansion read => Pattern.parse expansion = .ok read)
              (expandBraces pattern) patterns ∧
            paths = visited patterns root excluded tree place) ∧
      (listing pattern).2 = tree := by
  intro listing
  have ran : listing pattern = _ := run_glob tree pattern
  rw [ran]
  rcases parseAll_cases pattern with
    ⟨patterns, parsed, reads⟩ | ⟨expansion, member, cause, failed, refused⟩
  · rw [parsed]
    refine ⟨iff_of_false nofun ?_, nofun, ?_, rfl⟩
    · rintro ⟨expansion, member, cause, failed⟩
      obtain ⟨read, -, readable⟩ := exists_mem_of_forall₂ reads member
      cases failed.symm.trans readable
    · rintro _ ⟨rfl⟩
      exact ⟨pairwise_matching _, fun _ => mem_matching_iff_isSource fileTree leadDown reads,
        exists_lists_of_expansions reads, fun place located =>
          ⟨patterns, reads, matching_filesBelow fileTree located patterns⟩⟩
  · rw [refused]
    refine ⟨iff_of_true ⟨_, rfl⟩ ⟨expansion, member, cause, failed⟩, ?_, nofun, rfl⟩
    rintro _ ⟨rfl⟩
    exact ⟨expansion, member, cause, failed, rfl⟩

/-- The directory `/in` with style sheets and images, in directories whose names begin alike. -/
def looks : Tree :=
  { nodes :=
      [(["in"], .directory),
        (["in", "style.css"], .file "a".toUTF8),
        (["in", "site"], .directory),
        (["in", "site", "style.css"], .file "a".toUTF8),
        (["in", "site.css"], .file "b".toUTF8),
        (["in", "sites"], .directory),
        (["in", "sites", "a.png"], .file "c".toUTF8),
        (["in", "img"], .directory),
        (["in", "img", "old"], .directory),
        (["in", "img", "old", "x.gif"], .file "d".toUTF8),
        (["in", "img", "x.gif"], .file "e".toUTF8),
        (["in", "img", "x.txt"], .file "f".toUTF8)] }

/-- The matching files outside the excluded directories. -/
theorem listed_looks :
    (((ofDirectory (Tree.system []) "/in" ["site", "./img//old/"]).glob
      "**/*.\x7bpng,css,gif\x7d").run looks).1 =
        .ok ["img/x.gif", "site.css", "sites/a.png", "style.css"] := by
  have found : (parseAll "**/*.\x7bpng,css,gif\x7d").toOption.map (fun patterns =>
      (((looks.filesBelow [] "/in").filter fun names =>
          !isExcluded "/in" ["site", "./img//old/"] names).map ("/".intercalate ·)).filter
        fun path => patterns.any (·.accepts path)) =
      some ["style.css", "site.css", "sites/a.png", "img/x.gif"] := by decide +kernel
  rw [run_glob]
  cases parsed : parseAll "**/*.\x7bpng,css,gif\x7d" with
  | error error =>
      rw [parsed] at found
      cases found
  | ok patterns =>
      rw [parsed] at found
      have sameFiles : ["style.css", "site.css", "sites/a.png", "img/x.gif"].Perm
          ["img/x.gif", "site.css", "sites/a.png", "style.css"] := by decide +kernel
      refine congrArg Except.ok
        (eq_of_pairwise_lt (pairwise_matching _) (by decide +kernel) fun path => ?_)
      unfold matching
      rw [mem_dedupSorted, List.mem_mergeSort, ← sameFiles.mem_iff]
      exact iff_of_eq (congrArg (path ∈ ·) (Option.some.inj found))

/-- Two directories are left out with all that they hold, and no others.  Of a pattern that has
an expansion with an open set nothing is listed. -/
theorem glob_lists_matching_sources_looks :
    let excluded := ["site", "./img//old/"]
    let listing (pattern : String) :=
      ((ofDirectory (Tree.system []) "/in" excluded).glob pattern).run looks
    let paths := ["img/x.gif", "site.css", "sites/a.png", "style.css"]
    looks.IsFileTree ∧ LeadDown excluded ∧
      (listing "**/*.\x7bpng,css,gif\x7d").1 = .ok paths ∧
      (∀ path, path ∈ paths ↔ Covers "**/*.\x7bpng,css,gif\x7d" path ∧
        ∃ names, IsSource [] "/in" excluded looks names ∧ "/".intercalate names = path) ∧
      ∃ cause, (listing "\x7b*.css,[a\x7d").1 = .error (.badPattern "\x7b*.css,[a\x7d" cause) := by
  intro excluded listing paths
  have fileTree : looks.IsFileTree := by decide +kernel
  have leadDown : LeadDown excluded := by
    unfold LeadDown
    decide +kernel
  have unreadable : ∃ expansion ∈ expandBraces "\x7b*.css,[a\x7d",
      ∃ cause, Pattern.parse expansion = .error cause :=
    ⟨"[a", by decide +kernel, ⟨0, .openSet⟩, by decide +kernel⟩
  obtain ⟨_, _, lists, _⟩ :=
    glob_lists_matching_sources [] "/in" fileTree leadDown "**/*.\x7bpng,css,gif\x7d"
  obtain ⟨fails, refused, _⟩ :=
    glob_lists_matching_sources [] "/in" fileTree leadDown "\x7b*.css,[a\x7d"
  obtain ⟨error, failed⟩ := fails.mpr unreadable
  obtain ⟨_, _, cause, _, rfl⟩ := refused error failed
  exact ⟨fileTree, leadDown, listed_looks, (lists paths listed_looks).2.1, cause, failed⟩

end Loader

end WikiPress
