import Mathlib
import WikiPress.Proofs.Compilation.FileNames
import WikiPress.Proofs.Site.OutputWrites
import WikiPress.Proofs.Text.Splitting

/-!
# The words of a slug

A slug is made of the words of a name, its longest runs of ASCII letters and digits: they are
written in lower case, with one hyphen between two of them.  The words can be read back from
the slug, so a slug tells the words of a name up to case, and nothing else about it.

The file of a page is named by a slug.  Whatever the path of its source is, this is the name
of a file that lies directly in the output.
-/

namespace WikiPress.Slug

open Text

/-- The longest runs of ASCII letters and digits in a text, in order. -/
def words (chars : List Char) : List (List Char) :=
  (chars.splitOnP fun char => !char.isAlphanum).filter (· ≠ [])

/-! ## Letters and digits -/

theorem isAsciiAlphanumeric_eq (char : Char) : isAsciiAlphanumeric char = char.isAlphanum := by
  unfold isAsciiAlphanumeric isAsciiLetter isAsciiDigit Char.isAlphanum Char.isAlpha Char.isUpper
    Char.isLower Char.isDigit
  rw [Bool.or_comm (decide ('a' ≤ char) && _)]
  simp [Char.le_def]

theorem lowerAscii_eq (char : Char) : lowerAscii char = char.toLower := by
  have upper : ('A' ≤ char && char ≤ 'Z') = char.isUpper := by
    simp [Char.isUpper, Char.le_def]
  unfold lowerAscii
  rw [upper]
  split
  · rename_i isUpper
    exact (Char.toLower_eq_of_isUpper isUpper).symm
  · rename_i notUpper
    exact (Char.toLower_eq_of_not_isUpper notUpper).symm

theorem ne_hyphen_of_isAlphanum {char : Char} (isAlphanum : char.isAlphanum = true) :
    char ≠ '-' := by
  rintro rfl
  cases isAlphanum

/-! ## Words -/

variable {chars run : List Char} {char : Char}

/-- Everything about words follows from where a separator divides a text. -/
theorem words_append_separator (separates : char.isAlphanum = false) (before behind : List Char) :
    words (before ++ char :: behind) = words before ++ words behind := by
  unfold words
  rw [List.splitOnP_append_cons before behind (by simp [separates]), List.filter_append]

theorem words_cons_separator (separates : char.isAlphanum = false) (behind : List Char) :
    words (char :: behind) = words behind :=
  words_append_separator separates [] behind

theorem words_run (nonempty : run ≠ []) (isRun : ∀ char ∈ run, char.isAlphanum = true) :
    words run = [run] := by
  unfold words
  rw [List.splitOnP_eq_singleton fun char member => by simp [isRun char member]]
  simp [nonempty]

/-- A text is empty, begins with a separator, is a run, or goes on behind a run with a
separator. -/
@[elab_as_elim]
theorem induction_of_runs {motive : List Char → Prop} (chars : List Char) (nil : motive [])
    (separator : ∀ char behind, char.isAlphanum = false → motive behind →
      motive (char :: behind))
    (last : ∀ run, run ≠ [] → (∀ char ∈ run, char.isAlphanum = true) → motive run)
    (run : ∀ run char behind, run ≠ [] → (∀ char ∈ run, char.isAlphanum = true) →
      char.isAlphanum = false → motive behind → motive (run ++ char :: behind)) :
    motive chars := by
  match chars with
  | [] => exact nil
  | first :: rest =>
      by_cases isAlphanum : first.isAlphanum = true
      · have parts := List.takeWhile_append_dropWhile (p := Char.isAlphanum) (l := rest)
        have isRun : ∀ char ∈ first :: rest.takeWhile Char.isAlphanum, char.isAlphanum = true :=
          List.forall_mem_cons.mpr ⟨isAlphanum, fun _ => List.mem_takeWhile_imp⟩
        cases behindEq : rest.dropWhile Char.isAlphanum with
        | nil =>
            rw [behindEq, List.append_nil] at parts
            rw [parts] at isRun
            exact last _ (List.cons_ne_nil _ _) isRun
        | cons char behind =>
            have separates : char.isAlphanum = false := by
              have notAlphanum := List.head?_dropWhile_not Char.isAlphanum rest
              rwa [behindEq] at notAlphanum
            have shorter : behind.length < (first :: rest).length := by
              have within := (List.dropWhile_suffix Char.isAlphanum (l := rest)).length_le
              rw [behindEq] at within
              exact Nat.lt_succ_of_lt within
            rw [behindEq] at parts
            rw [← parts]
            exact run _ char behind (List.cons_ne_nil _ _) isRun separates
              (induction_of_runs behind nil separator last run)
      · exact separator first rest (by simpa using isAlphanum)
          (induction_of_runs rest nil separator last run)
termination_by chars.length
decreasing_by
  · exact shorter
  · exact Nat.lt_succ_self _

/-- Words are not empty, and have no separators. -/
theorem of_mem_words {word : List Char} (member : word ∈ words chars) :
    word ≠ [] ∧ ∀ char ∈ word, char.isAlphanum = true := by
  induction chars using induction_of_runs with
  | nil => cases member
  | separator char behind separates ih =>
      rw [words_cons_separator separates] at member
      exact ih member
  | last run nonempty isRun =>
      rw [words_run nonempty isRun, List.mem_singleton] at member
      rw [member]
      exact ⟨nonempty, isRun⟩
  | run run char behind nonempty isRun separates ih =>
      rw [words_append_separator separates, words_run nonempty isRun] at member
      rcases List.mem_cons.mp member with rfl | later
      · exact ⟨nonempty, isRun⟩
      · exact ih later

/-- Words that are joined by hyphens are read back. -/
theorem words_intercalate {runs : List (List Char)}
    (areWords : ∀ run ∈ runs, run ≠ [] ∧ ∀ char ∈ run, char.isAlphanum = true) :
    words (['-'].intercalate runs) = runs := by
  induction runs with
  | nil => rfl
  | cons run runs ih =>
      obtain ⟨⟨nonempty, isRun⟩, areWords⟩ := List.forall_mem_cons.mp areWords
      by_cases isLast : runs = []
      · rw [isLast, List.intercalate_singleton, words_run nonempty isRun]
      · rw [List.intercalate_cons_of_ne_nil isLast, List.append_assoc, List.singleton_append,
          words_append_separator rfl, words_run nonempty isRun, ih areWords]
        rfl

/-- Joined words do not end with a hyphen. -/
theorem ne_hyphen_of_mem_getLast? {runs : List (List Char)}
    (areWords : ∀ run ∈ runs, run ≠ [] ∧ ∀ char ∈ run, char.isAlphanum = true)
    (isLast : char ∈ (['-'].intercalate runs).getLast?) : char ≠ '-' := by
  induction runs with
  | nil => cases isLast
  | cons run runs ih =>
      obtain ⟨⟨nonempty, isRun⟩, areWords⟩ := List.forall_mem_cons.mp areWords
      cases runs with
      | nil =>
          rw [List.intercalate_singleton] at isLast
          exact ne_hyphen_of_isAlphanum (isRun char (List.mem_of_getLast? isLast))
      | cons next runs =>
          have behind : ['-'].intercalate (next :: runs) ≠ [] := by
            intro none
            have read := words_intercalate areWords
            rw [none] at read
            cases read
          rw [List.intercalate_cons_cons, List.getLast?_append_of_ne_nil _ behind] at isLast
          exact ih areWords isLast

/-! ## Slugs -/

theorem collapse_run (isRun : ∀ char ∈ run, char.isAlphanum = true) (behind : List Char) :
    collapse false (run ++ behind) = run ++ collapse false behind := by
  induction run with
  | nil => rfl
  | cons char run ih =>
      obtain ⟨isAlphanum, isRun⟩ := List.forall_mem_cons.mp isRun
      rw [List.cons_append, collapse, isAsciiAlphanumeric_eq, if_pos isAlphanum, ih isRun]
      rfl

/-- Behind separators, too, a run is written. -/
theorem collapse_true_run (nonempty : run ≠ []) (isRun : ∀ char ∈ run, char.isAlphanum = true)
    (behind : List Char) : collapse true (run ++ behind) = run ++ collapse false behind := by
  rw [← collapse_run isRun]
  cases run with
  | nil => exact absurd rfl nonempty
  | cons char run =>
      have isAlphanum := isRun char List.mem_cons_self
      rw [List.cons_append, collapse, collapse, isAsciiAlphanumeric_eq, if_pos isAlphanum,
        if_pos isAlphanum]

theorem collapse_separator (separates : char.isAlphanum = false) (inRun : Bool)
    (behind : List Char) :
    collapse inRun (char :: behind) =
      if inRun then collapse true behind else '-' :: collapse true behind := by
  rw [collapse, isAsciiAlphanumeric_eq, separates]
  rfl

/-- Behind separators the words are written with hyphens between them, and with a hyphen behind
the last one if separators follow it. -/
theorem exists_collapse_eq (chars : List Char) :
    ∃ ending, collapse true chars = ['-'].intercalate (words chars) ++ ending ∧
      (ending = [] ∨ ending = ['-'] ∧ words chars ≠ []) := by
  induction chars using induction_of_runs with
  | nil => exact ⟨[], rfl, .inl rfl⟩
  | separator char behind separates ih =>
      rw [words_cons_separator separates, collapse_separator separates]
      exact ih
  | last run nonempty isRun =>
      refine ⟨[], ?_, .inl rfl⟩
      have written := collapse_true_run nonempty isRun []
      rw [List.append_nil] at written
      rw [written, words_run nonempty isRun, List.intercalate_singleton]
      rfl
  | run run char behind nonempty isRun separates ih =>
      obtain ⟨ending, written, ends⟩ := ih
      rw [words_append_separator separates, words_run nonempty isRun,
        collapse_true_run nonempty isRun, collapse_separator separates, written]
      by_cases noWords : words behind = []
      · -- the separators behind the last word leave a hyphen
        have noEnding : ending = [] := ends.resolve_right fun hyphen => hyphen.2 noWords
        refine ⟨['-'], ?_, .inr ⟨rfl, List.cons_ne_nil _ _⟩⟩
        simp [noWords, noEnding]
      · refine ⟨ending, ?_, ends.imp_right fun hyphen => ⟨hyphen.1, List.cons_ne_nil _ _⟩⟩
        rw [List.singleton_append, List.intercalate_cons_of_ne_nil noWords]
        simp

/-- A text behind separators is written without a hyphen in front. -/
@[simp]
theorem dropWhile_collapse_true (chars : List Char) :
    (collapse true chars).dropWhile (· = '-') = collapse true chars := by
  induction chars with
  | nil => rfl
  | cons char chars ih =>
      by_cases isAlphanum : char.isAlphanum = true
      · rw [collapse, isAsciiAlphanumeric_eq, if_pos isAlphanum,
          List.dropWhile_cons_of_neg (by simpa using ne_hyphen_of_isAlphanum isAlphanum)]
      · rw [collapse_separator (by simpa using isAlphanum)]
        exact ih

@[simp]
theorem dropWhile_collapse_false (chars : List Char) :
    (collapse false chars).dropWhile (· = '-') = collapse true chars := by
  cases chars with
  | nil => rfl
  | cons char chars =>
      by_cases isAlphanum : char.isAlphanum = true
      · have same : collapse false (char :: chars) = collapse true (char :: chars) := by
          rw [collapse, collapse, isAsciiAlphanumeric_eq, if_pos isAlphanum, if_pos isAlphanum]
        rw [same, dropWhile_collapse_true]
      · have separates : char.isAlphanum = false := by simpa using isAlphanum
        rw [collapse_separator separates, collapse_separator separates]
        exact dropWhile_collapse_true chars

/-- Between the hyphens at its ends a text has its words, with hyphens between them. -/
@[simp]
theorem trimHyphens_collapse (chars : List Char) :
    trimHyphens (collapse false chars) = ['-'].intercalate (words chars) := by
  obtain ⟨ending, written, ends⟩ := exists_collapse_eq chars
  have noHyphen : ∀ char ∈ (['-'].intercalate (words chars)).getLast?, char ≠ '-' :=
    fun char => ne_hyphen_of_mem_getLast? fun word => of_mem_words
  have trimmed : (['-'].intercalate (words chars)).reverse.dropWhile (· = '-') =
      (['-'].intercalate (words chars)).reverse := by
    rw [← List.head?_reverse] at noHyphen
    cases reversed : (['-'].intercalate (words chars)).reverse with
    | nil => rfl
    | cons last front =>
        rw [reversed] at noHyphen
        exact List.dropWhile_cons_of_neg (by simpa using noHyphen last rfl)
  unfold trimHyphens
  rw [dropWhile_collapse_false, written, List.reverse_append]
  rcases ends with rfl | ⟨rfl, -⟩
  · rw [List.reverse_nil, List.nil_append, trimmed, List.reverse_reverse]
  · rw [List.reverse_singleton, List.singleton_append, List.dropWhile_cons_of_pos (by simp),
      trimmed, List.reverse_reverse]

/-- A slug is made of the words of a name, in lower case and with hyphens between them. -/
theorem toList_slugify (name : String) :
    (slugify name).toList =
      ['-'].intercalate ((words name.toList).map (·.map Char.toLower)) := by
  have lower : lowerAscii = Char.toLower := funext lowerAscii_eq
  unfold slugify
  rw [String.toList_ofList, trimHyphens_collapse, lower, map_intercalate]
  rfl

/-- The words of a slug are those of the name, in lower case. -/
@[simp]
theorem words_slugify (name : String) :
    words (slugify name).toList = (words name.toList).map (·.map Char.toLower) := by
  rw [toList_slugify]
  apply words_intercalate
  intro lowered member
  obtain ⟨word, isWord, rfl⟩ := List.mem_map.mp member
  obtain ⟨nonempty, isRun⟩ := of_mem_words isWord
  refine ⟨by simpa using nonempty, fun char charMember => ?_⟩
  obtain ⟨raw, inWord, rfl⟩ := List.mem_map.mp charMember
  have kept := isAsciiAlphanumeric_lowerAscii
    ((isAsciiAlphanumeric_eq raw).trans (isRun raw inWord))
  rwa [isAsciiAlphanumeric_eq, lowerAscii_eq] at kept

@[simp]
theorem slugify_slugify (name : String) : slugify (slugify name) = slugify name := by
  apply String.toList_inj.mp
  rw [toList_slugify, words_slugify, toList_slugify, List.map_map]
  congr 2
  funext word
  simp [Function.comp_def]

theorem slugify_eq_iff {name other : String} :
    slugify name = slugify other ↔
      (words name.toList).map (·.map Char.toLower) =
        (words other.toList).map (·.map Char.toLower) := by
  constructor
  · intro same
    rw [← words_slugify, same, words_slugify]
  · intro same
    apply String.toList_inj.mp
    rw [toList_slugify, same, toList_slugify]

/-- A slug has small letters, digits and hyphens. -/
theorem isLower_of_mem_slugify {name : String} {char : Char}
    (member : char ∈ (slugify name).toList) :
    char.isLower = true ∨ char.isDigit = true ∨ char = '-' := by
  have notUpper : char.isUpper = false := by
    unfold slugify at member
    rw [String.toList_ofList] at member
    obtain ⟨raw, -, rfl⟩ := List.mem_map.mp member
    rw [lowerAscii_eq, Char.isUpper_toLower_eq_false]
  rcases mem_slugify member with isAlphanum | isHyphen
  · rw [isAsciiAlphanumeric_eq, Char.isAlphanum, Char.isAlpha, notUpper, Bool.false_or,
      Bool.or_eq_true] at isAlphanum
    exact isAlphanum.imp_right .inl
  · exact .inr (.inr isHyphen)

end WikiPress.Slug

namespace WikiPress

open Files

/-- Slugs are a canonical form.  The slug of a name is made of its words, its longest runs of
ASCII letters and digits, in lower case and with a hyphen between two.  A slug is its own slug,
and names have one slug exactly if their words agree up to case.  The page of a path is named by
a slug, and its file by this and an ending; that is the name of a file, which is put directly
into whatever directory is the output. -/
theorem slugify_canonical :
    (∀ name, (slugify name).toList =
      ['-'].intercalate ((Slug.words name.toList).map (·.map Char.toLower))) ∧
    (∀ name, slugify (slugify name) = slugify name) ∧
    (∀ name other, slugify name = slugify other ↔
      (Slug.words name.toList).map (·.map Char.toLower) =
        (Slug.words other.toList).map (·.map Char.toLower)) ∧
    ∀ path,
      let page := Page.ofFileName path
      page.outputPath = page.id ++ ".html" ∧
      (∀ char ∈ page.id.toList, char.isLower = true ∨ char.isDigit = true ∨ char = '-') ∧
      Path.IsName page.outputPath ∧
      ∀ workingDirectory root,
        Site.writtenPlace workingDirectory (Path.join root page.outputPath) =
          Site.writtenPlace workingDirectory root ++ [page.outputPath] := by
  refine ⟨Slug.toList_slugify, Slug.slugify_slugify, fun _ _ => Slug.slugify_eq_iff, ?_⟩
  intro path page
  have isName : Path.IsName page.outputPath := Page.isName_outputPath rfl
  refine ⟨rfl, fun char => Slug.isLower_of_mem_slugify, isName, ?_⟩
  intro workingDirectory root
  rw [Site.writtenPlace_join (Path.isPlain_of_isName isName),
    Path.parts_of_isPart isName.toIsPart]

theorem slugify_canonical_markedName :
    let page := Page.ofFileName "notes/Hello, (World) 2!.md"
    page.id = "hello-world-2" ∧ page.outputPath = "hello-world-2.html" ∧
      'w' ∈ page.id.toList ∧ ('w'.isLower = true ∨ 'w'.isDigit = true ∨ 'w' = '-') ∧
      Slug.words "Hello, (World) 2!".toList =
        ["Hello".toList, "World".toList, "2".toList] ∧
      slugify "Hello, (World) 2!" = slugify "HELLO--world/2" := by
  intro page
  obtain ⟨-, -, sameIff, ofPath⟩ := slugify_canonical
  have id : page.id = "hello-world-2" := by decide +kernel
  have member : 'w' ∈ page.id.toList := by
    rw [id]
    decide +kernel
  obtain ⟨outputPath, charsOf, -⟩ := ofPath "notes/Hello, (World) 2!.md"
  refine ⟨id, ?_, member, charsOf 'w' member, by decide +kernel, ?_⟩
  · exact outputPath.trans (congrArg (· ++ ".html") id)
  · exact (sameIff _ _).mpr (by decide +kernel)

end WikiPress
