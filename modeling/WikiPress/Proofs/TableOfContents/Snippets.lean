import Mathlib.Data.List.DropRight
import WikiPress.Engine
import WikiPress.Proofs.Text.Splitting

/-!
# How snippets of running text are read

What stands around a mark is read again on its own.  White space at the ends of such a snippet
is kept as text.  What stands between is read as a document: if that is a single paragraph, the
tokens of the snippet are those of the paragraph, and otherwise it is kept as text, too.

`ReadsSnippet` says so about the characters of a snippet.  As there is one way to take the white
space off the ends, the relation holds of what the engine makes of a snippet, and of nothing else.
-/

namespace WikiPress

/-! ## White space at the ends -/

namespace Text

/-- White space alone. -/
def IsBlank (chars : List Char) : Prop :=
  ∀ char ∈ chars, isWhiteSpace char = true

/-- Characters of which neither the first nor the last one is white space. -/
structure IsTrimmed (chars : List Char) : Prop where
  nonempty : chars ≠ []
  first : ∀ char ∈ chars.head?, isWhiteSpace char = false
  last : ∀ char ∈ chars.getLast?, isWhiteSpace char = false

/-- White space is taken off behind what does not end with it. -/
theorem IsTrimmed.trimEnd_append {inner trailing : List Char} (trimmed : IsTrimmed inner)
    (blank : IsBlank trailing) : trimEnd (inner ++ trailing) = inner := by
  have isRun : ∀ char ∈ trailing.reverse, isWhiteSpace char = true :=
    fun char member => blank char (List.mem_reverse.mp member)
  have ends : ∀ char ∈ inner.reverse.head?, isWhiteSpace char = false := by
    rw [List.head?_reverse]
    exact trimmed.last
  rw [trimEnd, List.reverse_append, dropWhile_append_of_ends isRun ends, List.reverse_reverse]

/-- Characters that do not begin with white space end with some, or with none. -/
theorem exists_isTrimmed_append {chars : List Char} (nonempty : chars ≠ [])
    (first : ∀ char ∈ chars.head?, isWhiteSpace char = false) :
    ∃ inner trailing, chars = inner ++ trailing ∧ IsTrimmed inner ∧ IsBlank trailing := by
  have parts := @List.rdropWhile_append_rtakeWhile _ isWhiteSpace chars
  have blank : IsBlank (chars.rtakeWhile isWhiteSpace) := fun _ => List.mem_rtakeWhile_imp
  have last : ∀ char ∈ (chars.rdropWhile isWhiteSpace).getLast?, isWhiteSpace char = false := by
    intro char isLast
    obtain ⟨nonempty, rfl⟩ := List.mem_getLast?_eq_getLast isLast
    exact Bool.eq_false_iff.mpr (List.rdropWhile_last_not isWhiteSpace chars nonempty)
  generalize chars.rdropWhile isWhiteSpace = inner at parts last
  generalize chars.rtakeWhile isWhiteSpace = trailing at parts blank
  subst parts
  cases inner with
  | nil =>
      cases trailing with
      | nil => exact absurd rfl nonempty
      | cons char rest =>
          have isBlank := blank char List.mem_cons_self
          rw [first char rfl] at isBlank
          cases isBlank
  | cons char rest => exact ⟨_, trailing, rfl, ⟨List.cons_ne_nil _ _, first, last⟩, blank⟩

/-- Characters are white space alone, or there is something else between white space. -/
theorem exists_isTrimmed (chars : List Char) :
    IsBlank chars ∨ ∃ leading inner trailing, chars = leading ++ inner ++ trailing ∧
      IsBlank leading ∧ IsTrimmed inner ∧ IsBlank trailing := by
  have parts := List.takeWhile_append_dropWhile (p := isWhiteSpace) (l := chars)
  have blank : IsBlank (chars.takeWhile isWhiteSpace) := fun _ => List.mem_takeWhile_imp
  have first := ends_dropWhile isWhiteSpace chars
  by_cases nothing : chars.dropWhile isWhiteSpace = []
  · rw [nothing, List.append_nil] at parts
    exact .inl (parts ▸ blank)
  · right
    obtain ⟨inner, trailing, restEq, trimmed, blankBehind⟩ := exists_isTrimmed_append nothing first
    refine ⟨_, inner, trailing, ?_, blank, trimmed, blankBehind⟩
    rw [List.append_assoc, ← restEq, parts]

end Text

/-! ## Reading -/

namespace Engine

open Text

variable {engine : Engine} {pages : PageSet}

/-- Characters that are kept as they are, in a token of their own if there are any. -/
def keptText : List Char → List Token
  | [] => []
  | char :: rest => [Token.ofText (String.ofList (char :: rest))]

@[simp]
theorem keptText_nil : keptText [] = [] :=
  rfl

/-- Characters that are read as a single paragraph, with certain tokens in it. -/
def ReadsParagraph (engine : Engine) (pages : PageSet) (chars : List Char)
    (children : List Token) : Prop :=
  ∃ opening inline closing,
    blockTokens engine.rules pages (String.ofList chars) = [opening, inline, closing] ∧
    opening.kind = .paragraphOpen ∧ inline.kind = .inline ∧ closing.kind = .paragraphClose ∧
    children = inline.children.getD []

/-- A snippet of running text, and the tokens that it is read as: those of the paragraph that it
is, or else its text, and the white space at its ends. -/
inductive ReadsSnippet (engine : Engine) (pages : PageSet) : List Char → List Token → Prop where
  | blank {chars : List Char} (spaces : IsBlank chars) :
      ReadsSnippet engine pages chars (keptText chars)
  | paragraph {leading inner trailing : List Char} {children : List Token}
      (before : IsBlank leading) (trimmed : IsTrimmed inner) (behind : IsBlank trailing)
      (reads : ReadsParagraph engine pages inner children) :
      ReadsSnippet engine pages (leading ++ inner ++ trailing)
        (keptText leading ++ children ++ keptText trailing)
  | other {leading inner trailing : List Char}
      (before : IsBlank leading) (trimmed : IsTrimmed inner) (behind : IsBlank trailing)
      (noParagraph : ¬ ∃ children, ReadsParagraph engine pages inner children) :
      ReadsSnippet engine pages (leading ++ inner ++ trailing)
        (keptText leading ++ keptText inner ++ keptText trailing)

theorem keptText_of_ne_nil {chars : List Char} (nonempty : chars ≠ []) :
    keptText chars = [Token.ofText (String.ofList chars)] := by
  cases chars with
  | nil => exact absurd rfl nonempty
  | cons char rest => rfl

@[simp]
theorem textTokens_ofList (chars : List Char) :
    textTokens (String.ofList chars) = keptText chars := by
  unfold textTokens
  cases chars with
  | nil => rfl
  | cons char rest =>
      have filled : (String.ofList (char :: rest)).isEmpty = false := by simp
      rw [filled]
      rfl

@[simp]
theorem paragraphChildren?_eq_some_iff {chars : List Char} {children : List Token} :
    paragraphChildren? (blockTokens engine.rules pages (String.ofList chars)) = some children ↔
      ReadsParagraph engine pages chars children := by
  unfold ReadsParagraph paragraphChildren?
  generalize blockTokens engine.rules pages (String.ofList chars) = tokens
  constructor
  · intro found
    split at found
    · rename_i opening inline closing
      split at found
      · rename_i kinds
        rw [Bool.and_eq_true, Bool.and_eq_true] at kinds
        cases found
        exact ⟨_, _, _, rfl, of_decide_eq_true kinds.1.1, of_decide_eq_true kinds.1.2,
          of_decide_eq_true kinds.2, rfl⟩
      · cases found
    · cases found
  · rintro ⟨opening, inline, closing, rfl, isOpening, isInline, isClosing, rfl⟩
    simp [isOpening, isInline, isClosing]

theorem paragraphChildren?_eq_none_iff {chars : List Char} :
    paragraphChildren? (blockTokens engine.rules pages (String.ofList chars)) = none ↔
      ¬ ∃ children, ReadsParagraph engine pages chars children := by
  simp [Option.eq_none_iff_forall_ne_some]

theorem tokenizeInline_of_isBlank {chars : List Char} (blank : IsBlank chars) :
    engine.tokenizeInline pages (String.ofList chars) = keptText chars := by
  have ends : ∀ char ∈ ([] : List Char).head?, isWhiteSpace char = false := nofun
  have taken : chars.takeWhile isWhiteSpace = chars := by
    have all := takeWhile_append_of_ends blank ends
    rwa [List.append_nil] at all
  unfold tokenizeInline
  simp only [String.toList_ofList, taken, List.drop_length]
  exact textTokens_ofList chars

/-- What stands between white space is read on its own, and kept if it is no paragraph. -/
theorem tokenizeInline_of_isTrimmed {leading inner trailing : List Char}
    (before : IsBlank leading) (trimmed : IsTrimmed inner) (behind : IsBlank trailing) :
    engine.tokenizeInline pages (String.ofList (leading ++ inner ++ trailing)) =
      keptText leading ++
        (paragraphChildren? (blockTokens engine.rules pages (String.ofList inner))).getD
          (keptText inner) ++
        keptText trailing := by
  have ends : ∀ char ∈ (inner ++ trailing).head?, isWhiteSpace char = false := by
    rw [List.head?_append_of_ne_nil inner trimmed.nonempty]
    exact trimmed.first
  have taken := takeWhile_append_of_ends before ends
  have filled : inner.isEmpty = false := by simpa using trimmed.nonempty
  unfold tokenizeInline
  simp only [String.toList_ofList, List.append_assoc, taken, List.drop_left,
    trimmed.trimEnd_append behind, ← List.drop_drop, filled, textTokens_ofList,
    keptText_of_ne_nil trimmed.nonempty]
  rfl

/-- The tokens that a snippet is read as are those that the engine makes of it. -/
theorem readsSnippet_iff {chars : List Char} {children : List Token} :
    ReadsSnippet engine pages chars children ↔
      children = engine.tokenizeInline pages (String.ofList chars) := by
  constructor
  · intro reads
    cases reads with
    | blank spaces => exact (tokenizeInline_of_isBlank spaces).symm
    | paragraph before trimmed behind reads =>
        rw [tokenizeInline_of_isTrimmed before trimmed behind,
          paragraphChildren?_eq_some_iff.mpr reads, Option.getD_some]
    | other before trimmed behind noParagraph =>
        rw [tokenizeInline_of_isTrimmed before trimmed behind,
          paragraphChildren?_eq_none_iff.mpr noParagraph, Option.getD_none]
  · rintro rfl
    obtain blank | ⟨leading, inner, trailing, rfl, before, trimmed, behind⟩ :=
      exists_isTrimmed chars
    · rw [tokenizeInline_of_isBlank blank]
      exact .blank blank
    · rw [tokenizeInline_of_isTrimmed before trimmed behind]
      cases found : paragraphChildren? (blockTokens engine.rules pages (String.ofList inner)) with
      | some children =>
          exact .paragraph before trimmed behind (paragraphChildren?_eq_some_iff.mp found)
      | none =>
          exact .other before trimmed behind (paragraphChildren?_eq_none_iff.mp found)

end Engine

end WikiPress
