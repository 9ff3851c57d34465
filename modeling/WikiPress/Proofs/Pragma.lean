import Mathlib.Data.List.TakeWhile
import WikiPress.Pragma
import WikiPress.Proofs.Text.Splitting

/-!
# Pragmas line by line

The search for directives runs over a text as a whole, but what it does can be told line by
line: a line that begins with `#title` as a word of its own is blanked, all others are kept, and
the last of the former gives the title.  The key is that a directive never reaches beyond its
line, so the search comes to the start of every line, whatever stood before it.
-/

namespace WikiPress.Pragma

open Text

/-! ## Directives -/

/-- Whether nothing or a line break follows. -/
def EndsLine (behind : List Char) : Prop :=
  ∀ char ∈ behind.head?, char = '\n'

/-- A text has one first line. -/
theorem line_append_inj {line other behind otherBehind : List Char} (inLine : '\n' ∉ line)
    (otherInLine : '\n' ∉ other) (endsLine : EndsLine behind) (otherEnds : EndsLine otherBehind)
    (same : line ++ behind = other ++ otherBehind) : line = other ∧ behind = otherBehind := by
  have only {line : List Char} (inLine : '\n' ∉ line) : ∀ char ∈ line, (char != '\n') = true :=
    fun char member => bne_iff_ne.mpr fun same => inLine (same ▸ member)
  have ends {behind : List Char} (endsLine : EndsLine behind) :
      ∀ char ∈ behind.head?, (char != '\n') = false :=
    fun char isHead => by simpa using endsLine char isHead
  exact append_inj_of_run (only inLine) (only otherInLine) (ends endsLine) (ends otherEnds) same

/-- Whether a directive can be written on a line, and read back. -/
structure Directive.IsSound (directive : Directive) : Prop where
  nonempty : directive.keyword ≠ []
  isKeyword : ∀ char ∈ directive.keyword, isWordChar char = true
  isWhole : ∀ char ∈ directive.value.head?, isWordChar char = false
  inLine : '\n' ∉ directive.value

/-- A line break is not part of a keyword. -/
@[simp]
theorem isWordChar_lineBreak : isWordChar '\n' = false := by
  decide +kernel

theorem isWordChar_of_mem_title : ∀ char ∈ "title".toList, isWordChar char = true := by
  rw [← List.all_eq_true]
  decide +kernel

variable {directive : Directive} {chars line rest : List Char} {char : Char}

theorem Directive.IsSound.lineBreak_not_mem_write (sound : directive.IsSound) :
    '\n' ∉ directive.write := by
  intro member
  rcases List.mem_cons.mp member with same | inside
  · cases same
  · rcases List.mem_append.mp inside with inKeyword | inValue
    · cases isWordChar_lineBreak.symm.trans (sound.isKeyword _ inKeyword)
    · exact sound.inLine inValue

/-- The keyword of a directive ends in front of its value, or else at the end of the line. -/
theorem Directive.IsSound.isWordChar_head? (sound : directive.IsSound) (endsLine : EndsLine rest) :
    ∀ char ∈ (directive.value ++ rest).head?, isWordChar char = false := by
  intro char isHead
  rw [List.head?_append, Option.mem_def, Option.or_eq_some_iff] at isHead
  rcases isHead with inValue | ⟨-, behind⟩
  · exact sound.isWhole char inValue
  · rw [endsLine char behind]
    exact isWordChar_lineBreak

/-- Directives are read exactly where they are written: `#`, a keyword as long as it can be,
and the rest of the line. -/
theorem directive?_eq_some_iff :
    directive? chars = some (directive, rest) ↔
      directive.IsSound ∧ EndsLine rest ∧ chars = directive.write ++ rest := by
  constructor
  · intro found
    unfold directive? at found
    split at found
    · rename_i behind
      split at found
      · cases found
      · rename_i nonempty
        cases found
        have inLine := List.takeWhile_append_dropWhile (p := (· != '\n'))
          (l := behind.dropWhile isWordChar)
        have parts := List.takeWhile_append_dropWhile (p := isWordChar) (l := behind)
        refine ⟨⟨nonempty, fun char => List.mem_takeWhile_imp, ?_, ?_⟩, ?_, ?_⟩
        · intro char isHead
          apply ends_dropWhile isWordChar behind char
          rw [← inLine, List.head?_append, isHead]
          rfl
        · intro lineBreak
          simpa using List.mem_takeWhile_imp lineBreak
        · intro char isHead
          simpa using ends_dropWhile (· != '\n') _ char isHead
        · rw [Directive.write, List.cons_append, List.append_assoc, inLine, parts]
    · cases found
  · rintro ⟨sound, endsLine, rfl⟩
    have behindEnds := sound.isWordChar_head? endsLine
    have valueInLine : ∀ char ∈ directive.value, (char != '\n') = true := by
      rintro char member
      exact bne_iff_ne.mpr fun same => sound.inLine (same ▸ member)
    have restEnds : ∀ char ∈ rest.head?, (char != '\n') = false := by
      intro char isHead
      simpa using endsLine char isHead
    rw [Directive.write, List.cons_append, List.append_assoc, directive?]
    simp only [takeWhile_append_of_ends sound.isKeyword behindEnds,
      dropWhile_append_of_ends sound.isKeyword behindEnds,
      takeWhile_append_of_ends valueInLine restEnds, dropWhile_append_of_ends valueInLine restEnds]
    split
    · rename_i isEmpty
      exact absurd isEmpty sound.nonempty
    · rfl

/-! ## Title lines -/

/-- The mark of a line that sets the title. -/
def titleMark : List Char := "#title".toList

/-- Whether a line sets the title: it begins with the mark, and no word goes on behind that. -/
def IsTitleLine (line : List Char) : Prop :=
  ∃ value, line = titleMark ++ value ∧ ∀ char ∈ value.head?, isWordChar char = false

theorem isTitleLine_iff :
    IsTitleLine line ↔ titleMark <+: line ∧
      ∀ char ∈ (line.drop titleMark.length).head?, isWordChar char = false := by
  constructor
  · rintro ⟨value, rfl, isWhole⟩
    rw [List.drop_left]
    exact ⟨List.prefix_append _ _, isWhole⟩
  · rintro ⟨⟨value, rfl⟩, isWhole⟩
    rw [List.drop_left] at isWhole
    exact ⟨value, rfl, isWhole⟩

instance (line : List Char) : Decidable (IsTitleLine line) :=
  -- the next character is looked at, in place of all characters that there are
  have : Decidable (∀ char ∈ (line.drop titleMark.length).head?, isWordChar char = false) :=
    Option.decidableForallMem _
  decidable_of_iff _ isTitleLine_iff.symm

/-- The title that a line would set. -/
def titleOf (line : List Char) : String :=
  trim (String.ofList (line.drop titleMark.length))

/-- A line without its directive, if it is a title line. -/
def blanked (line : List Char) : List Char :=
  if IsTitleLine line then [] else line

/-- A directive makes its line a title line exactly if its keyword says so. -/
theorem Directive.IsSound.isTitleLine_write_iff (sound : directive.IsSound) :
    IsTitleLine directive.write ↔ directive.keyword = "title".toList := by
  constructor
  · rintro ⟨value, written, isWhole⟩
    exact (append_inj_of_run sound.isKeyword isWordChar_of_mem_title sound.isWhole isWhole
      (List.cons.inj written).2).1
  · intro keyword
    refine ⟨directive.value, ?_, sound.isWhole⟩
    rw [Directive.write, keyword]
    rfl

theorem Directive.IsSound.title?_eq (sound : directive.IsSound) :
    directive.title? =
      if IsTitleLine directive.write then some (titleOf directive.write) else none := by
  unfold Directive.title?
  simp only [sound.isTitleLine_write_iff]
  split
  · rename_i keyword
    unfold titleOf Directive.write
    rw [keyword]
    rfl
  · rfl

theorem Directive.IsSound.remainder_eq (sound : directive.IsSound) :
    directive.remainder = blanked directive.write := by
  unfold Directive.remainder blanked
  rw [sound.title?_eq]
  split <;> rfl

/-- A title line is a directive. -/
theorem IsTitleLine.exists_directive (isTitle : IsTitleLine line) (inLine : '\n' ∉ line) :
    ∃ directive : Directive, directive.IsSound ∧ directive.write = line := by
  obtain ⟨value, rfl, isWhole⟩ := isTitle
  refine ⟨⟨"title".toList, value⟩, ⟨List.cons_ne_nil _ _, isWordChar_of_mem_title, isWhole, ?_⟩,
    rfl⟩
  exact fun inValue => inLine (List.mem_append_right _ inValue)

/-! ## The search -/

variable {title : Option String}

@[simp]
theorem extractFrom_nil (lineStart : Bool) (title : Option String) :
    extractFrom lineStart title [] = ([], title) := by
  rw [extractFrom]

theorem extractFrom_of_directive (found : directive? chars = some (directive, rest)) :
    extractFrom true title chars =
      (directive.remainder ++ (extractFrom false (directive.title?.or title) rest).1,
        (extractFrom false (directive.title?.or title) rest).2) := by
  cases chars with
  | nil => cases found
  | cons char chars =>
      rw [extractFrom]
      split
      · rename_i again
        cases found.symm.trans again
        rfl
      · rename_i missing
        cases found.symm.trans missing

theorem extractFrom_of_noDirective {lineStart : Bool}
    (missing : lineStart = true → directive? (char :: chars) = none) :
    extractFrom lineStart title (char :: chars) =
      (char :: (extractFrom (char == '\n') title chars).1,
        (extractFrom (char == '\n') title chars).2) := by
  rw [extractFrom]
  split
  · rename_i found
    split at found
    · rename_i atStart
      cases (missing atStart).symm.trans found
    · cases found
  · rfl

@[simp]
theorem extractFrom_false_cons (title : Option String) (char : Char) (chars : List Char) :
    extractFrom false title (char :: chars) =
      (char :: (extractFrom (char == '\n') title chars).1,
        (extractFrom (char == '\n') title chars).2) :=
  extractFrom_of_noDirective fun atStart => by cases atStart

/-- Behind the start of a line nothing is looked for in it. -/
theorem extractFrom_inLine (inLine : '\n' ∉ line) (title : Option String) (rest : List Char) :
    extractFrom false title (line ++ rest) =
      (line ++ (extractFrom false title rest).1, (extractFrom false title rest).2) := by
  induction line with
  | nil => rfl
  | cons char line ih =>
      obtain ⟨different, inLine⟩ := not_or.mp (mt List.mem_cons.mpr inLine)
      have goesOn : (char == '\n') = false := beq_false_of_ne (Ne.symm different)
      rw [List.cons_append, extractFrom_false_cons, goesOn, ih inLine]
      rfl

/-- A line is blanked and gives the title if it is a title line, and is kept otherwise. -/
theorem extractFrom_line (inLine : '\n' ∉ line) (endsLine : EndsLine rest)
    (title : Option String) :
    let found := if IsTitleLine line then some (titleOf line) else title
    extractFrom true title (line ++ rest) =
      (blanked line ++ (extractFrom false found rest).1, (extractFrom false found rest).2) := by
  intro found
  cases read : directive? (line ++ rest) with
  | some result =>
      obtain ⟨directive, behind⟩ := result
      obtain ⟨sound, behindEnds, written⟩ := directive?_eq_some_iff.mp read
      obtain ⟨rfl, rfl⟩ := line_append_inj inLine sound.lineBreak_not_mem_write endsLine
        behindEnds written
      have foundEq : directive.title?.or title = found := by
        rw [sound.title?_eq]
        simp only [found]
        split <;> rfl
      rw [extractFrom_of_directive read, sound.remainder_eq, foundEq]
  | none =>
      have notTitle : ¬ IsTitleLine line := by
        intro isTitle
        obtain ⟨directive, sound, rfl⟩ := isTitle.exists_directive inLine
        cases read.symm.trans (directive?_eq_some_iff.mpr ⟨sound, endsLine, rfl⟩)
      have foundEq : found = title := if_neg notTitle
      rw [foundEq, blanked, if_neg notTitle, ← extractFrom_inLine inLine]
      cases whole : line ++ rest with
      | nil => rw [extractFrom_nil, extractFrom_nil]
      | cons char behind =>
          rw [whole] at read
          rw [extractFrom_of_noDirective fun _ => read, extractFrom_false_cons]

/-! ## All lines -/

/-- A title line takes the place of every title before it. -/
theorem getLast?_filter_cons (line : List Char) (lines : List (List Char))
    (title : Option String) :
    (((line :: lines).filter (IsTitleLine ·)).getLast?.map titleOf).or title =
      ((lines.filter (IsTitleLine ·)).getLast?.map titleOf).or
        (if IsTitleLine line then some (titleOf line) else title) := by
  by_cases isTitle : IsTitleLine line
  · rw [List.filter_cons_of_pos (by simpa using isTitle), if_pos isTitle, List.getLast?_cons]
    cases (lines.filter (IsTitleLine ·)).getLast? <;> rfl
  · rw [List.filter_cons_of_neg (by simpa using isTitle), if_neg isTitle]

theorem extractFrom_lines {lines : List (List Char)} (nonempty : lines ≠ [])
    (inLine : ∀ line ∈ lines, '\n' ∉ line) (title : Option String) :
    extractFrom true title (['\n'].intercalate lines) =
      (['\n'].intercalate (lines.map blanked),
        ((lines.filter (IsTitleLine ·)).getLast?.map titleOf).or title) := by
  induction lines generalizing title with
  | nil => exact absurd rfl nonempty
  | cons line lines ih =>
      obtain ⟨lineInLine, inLine⟩ := List.forall_mem_cons.mp inLine
      rw [getLast?_filter_cons]
      cases lines with
      | nil =>
          have endsLine : EndsLine [] := nofun
          simpa [extractFrom_nil] using extractFrom_line lineInLine endsLine title
      | cons next lines =>
          have endsLine : EndsLine ('\n' :: ['\n'].intercalate (next :: lines)) := by
            rintro char ⟨⟩
            rfl
          rw [List.intercalate_cons_cons, List.append_assoc, List.singleton_append,
            extractFrom_line lineInLine endsLine, extractFrom_false_cons, beq_self_eq_true,
            ih (List.cons_ne_nil _ _) inLine]
          simp [List.intercalate_cons_cons]

/-- The lines of a text. -/
def linesOf (text : String) : List (List Char) :=
  text.toList.splitOn '\n'

@[simp]
theorem intercalate_linesOf (text : String) :
    ['\n'].intercalate (linesOf text) = text.toList :=
  List.intercalate_splitOn _

theorem extract_eq (text : String) :
    extract text =
      (String.ofList (['\n'].intercalate ((linesOf text).map blanked)),
        ⟨((linesOf text).filter (IsTitleLine ·)).getLast?.map titleOf⟩) := by
  have inLine : ∀ line ∈ linesOf text, '\n' ∉ line := fun line => not_mem_of_mem_splitOn
  have nonempty : linesOf text ≠ [] := List.splitOn_ne_nil _ _
  have read := extractFrom_lines nonempty inLine none
  rw [intercalate_linesOf, Option.or_none] at read
  rw [extract, read]

theorem isInfix_titleOf (line : List Char) : (titleOf line).toList <:+: line := by
  unfold titleOf trim trimEnd trimStart
  simp only [String.toList_ofList]
  have atStart : (line.drop titleMark.length).dropWhile isWhiteSpace <:+ line :=
    (List.dropWhile_suffix _).trans (List.drop_suffix _ _)
  refine List.IsInfix.trans (List.IsPrefix.isInfix ?_) atStart.isInfix
  rw [← List.reverse_suffix, List.reverse_reverse]
  exact List.dropWhile_suffix _

/-- A title stands in its text. -/
theorem isInfix_title {text title : String} (found : (extract text).2.title = some title) :
    title.toList <:+: text.toList := by
  rw [extract_eq] at found
  obtain ⟨line, isLast, rfl⟩ := Option.map_eq_some_iff.mp found
  have isLine := (List.mem_filter.mp (List.mem_of_getLast? isLast)).1
  have inText := isInfix_intercalate ['\n'] isLine
  rw [intercalate_linesOf] at inText
  exact (isInfix_titleOf line).trans inText

/-- What is left of a line is no title line. -/
theorem not_isTitleLine_blanked (line : List Char) : ¬ IsTitleLine (blanked line) := by
  unfold blanked
  split
  · rintro ⟨value, written, -⟩
    cases written
  · assumption

/-- The lines of what is left of a text are those of the text, blanked. -/
@[simp]
theorem linesOf_extract (text : String) :
    linesOf (extract text).1 = (linesOf text).map blanked := by
  rw [extract_eq]
  unfold linesOf
  rw [String.toList_ofList]
  apply List.splitOn_intercalate
  · intro line member
    obtain ⟨original, isLine, rfl⟩ := List.mem_map.mp member
    unfold blanked
    split
    · exact List.not_mem_nil
    · exact not_mem_of_mem_splitOn isLine
  · simp

/-- Pragmas are taken out line by line.  What is left of a text has as many lines as the text:
a title line has become empty, every other line is as it was.  The title is what stands behind
the mark of the last title line, without white space around it, and there is none if no line is
a title line.  What is left holds no title line, and taking out its pragmas changes nothing. -/
theorem extract_by_lines (text : String) :
    linesOf (extract text).1 =
        (linesOf text).map (fun line => if IsTitleLine line then [] else line) ∧
      (extract text).2.title = ((linesOf text).filter (IsTitleLine ·)).getLast?.map (fun line =>
        trim (String.ofList (line.drop titleMark.length))) ∧
      extract (extract text).1 = ((extract text).1, { title := none }) := by
  refine ⟨linesOf_extract text, congrArg (fun result => result.2.title) (extract_eq text), ?_⟩
  have noTitles : ((linesOf (extract text).1).filter (IsTitleLine ·)) = [] := by
    rw [linesOf_extract, List.filter_eq_nil_iff]
    intro line member
    obtain ⟨original, -, rfl⟩ := List.mem_map.mp member
    simpa using not_isTitleLine_blanked original
  have kept : (linesOf (extract text).1).map blanked = linesOf (extract text).1 := by
    rw [linesOf_extract, List.map_map]
    apply List.map_congr_left
    intro line _
    exact if_neg (not_isTitleLine_blanked line)
  rw [extract_eq, kept, noTitles, intercalate_linesOf, String.ofList_toList]
  rfl

end WikiPress.Pragma
