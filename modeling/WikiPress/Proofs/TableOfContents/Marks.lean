import Mathlib.Data.List.Infix
import Mathlib.Data.List.TakeWhile
import WikiPress.Proofs.Text.Splitting
import WikiPress.TableOfContents

/-!
# The marks of a text

A mark is the sign `#toc`, behind which white space and a digit may stand.  Reading a text from
left to right finds its marks one after the other: each is the first one that is left, and as
long as it can be.  The marks and the text between them are the whole text.
-/

namespace WikiPress

namespace Text

/-- A character in one of several ranges is in no range that is disjoint to them. -/
theorem not_inRanges_of_disjoint {ranges others : List (Nat × Nat)}
    (disjoint : ∀ range ∈ ranges, ∀ other ∈ others, range.2 < other.1 ∨ other.2 < range.1)
    {char : Char} (inside : inRanges ranges char = true) : inRanges others char = false := by
  obtain ⟨range, isRange, within⟩ := List.any_eq_true.mp inside
  rw [inRanges, List.any_eq_false]
  intro other isOther
  have apart := disjoint range isRange other isOther
  simp only [Bool.and_eq_true, decide_eq_true_eq] at within ⊢
  omega

/-- A digit is no white space. -/
theorem isWhiteSpace_of_isDecimalDigit {char : Char} (isDigit : isDecimalDigit char = true) :
    isWhiteSpace char = false :=
  not_inRanges_of_disjoint (by decide +kernel) isDigit

end Text

namespace TableOfContents

open Text

/-! ## Marks -/

/-- What a mark begins with. -/
def sign : List Char :=
  "#toc".toList

/-- What may stand behind the sign of a mark, with the level that it asks for: nothing, or a
digit that white space separates from the sign. -/
inductive IsLevel : List Char → Option Nat → Prop where
  | none : IsLevel [] none
  | digit {space : List Char} {digit : Char} (separated : space ≠ [])
      (isSpace : ∀ char ∈ space, isWhiteSpace char = true) (isDigit : isDecimalDigit digit = true) :
      IsLevel (space ++ [digit]) (digitValue? digit)

/-- What stands behind a sign determines the level. -/
theorem IsLevel.unique {level other : List Char} {requested otherRequested : Option Nat}
    (isLevel : IsLevel level requested) (isOther : IsLevel other otherRequested)
    (same : level = other) : requested = otherRequested := by
  cases isLevel <;> cases isOther
  case none.none => rfl
  case none.digit => exact absurd same.symm (List.append_ne_nil_of_right_ne_nil _ nofun)
  case digit.none => exact absurd same (List.append_ne_nil_of_right_ne_nil _ nofun)
  case digit.digit =>
      cases (List.append_inj' same rfl).2
      rfl

/-- The sign does not overlap itself: no text that ends in front of a sign begins in another. -/
theorem eq_nil_of_sign_append {between after later : List Char}
    (same : sign ++ after = between ++ (sign ++ later)) (noSign : ¬ sign <:+: between) :
    between = [] := by
  match between with
  | [] => rfl
  | [_] | [_, _] | [_, _, _] => simp [sign] at same
  | _ :: _ :: _ :: _ :: rest =>
      obtain ⟨rfl, rfl, rfl, rfl, -⟩ : _ ∧ _ ∧ _ ∧ _ ∧ _ := by simpa [sign] using same
      exact absurd (List.prefix_append sign rest).isInfix noSign

/-- What stands in front of the first sign, and behind it. -/
theorem append_sign_inj {before after earlier later : List Char}
    (same : before ++ (sign ++ after) = earlier ++ (sign ++ later))
    (noSign : ¬ sign <:+: before) (noEarlier : ¬ sign <:+: earlier) :
    before = earlier ∧ after = later := by
  have inFront : before = earlier := by
    rcases List.append_eq_append_iff.mp same with ⟨between, rfl, behind⟩ | ⟨between, rfl, behind⟩
    · rw [eq_nil_of_sign_append behind fun inside =>
        noEarlier (inside.trans (List.suffix_append _ _).isInfix), List.append_nil]
    · rw [eq_nil_of_sign_append behind fun inside =>
        noSign (inside.trans (List.suffix_append _ _).isInfix), List.append_nil]
  rw [inFront] at same
  exact ⟨inFront, List.append_cancel_left (List.append_cancel_left same)⟩

/-- A stretch of a text: text, or a mark with what stands behind its sign and the level that it
asks for. -/
inductive Stretch where
  | text (chars : List Char)
  | mark (behind : List Char) (requested : Option Nat)
deriving DecidableEq, Repr

namespace Stretch

/-- A stretch as it is written. -/
def source : Stretch → List Char
  | text chars => chars
  | mark behind _ => sign ++ behind

/-- The piece that a stretch is read as. -/
def piece : Stretch → Piece
  | text chars => .text chars
  | mark _ requested => .mark requested

/-- The stretch between two marks, unless it is empty. -/
def between (chars : List Char) : List Stretch :=
  if chars = [] then [] else [text chars]

@[simp]
theorem flatMap_source_between (chars : List Char) : (between chars).flatMap source = chars := by
  unfold between
  split
  · rename_i isEmpty
    exact isEmpty.symm
  · exact List.flatMap_singleton _ _

end Stretch

/-- The marks of a text from left to right, with the text between them.  Each mark is the first
one, as the text in front of it holds no sign, and what stands behind its sign is as long as it
can be. -/
inductive LeftmostMarks : List Char → List Stretch → Prop where
  | none {chars : List Char} (noSign : ¬ sign <:+: chars) :
      LeftmostMarks chars (Stretch.between chars)
  | next {before level after : List Char} {requested : Option Nat} {stretches : List Stretch}
      (noSign : ¬ sign <:+: before) (isLevel : IsLevel level requested)
      (longest : ∀ other rest otherRequested, IsLevel other otherRequested →
        level ++ after = other ++ rest → other.length ≤ level.length)
      (behind : LeftmostMarks after stretches) :
      LeftmostMarks (before ++ (sign ++ (level ++ after)))
        (Stretch.between before ++ .mark level requested :: stretches)

namespace LeftmostMarks

variable {chars : List Char} {stretches : List Stretch}

/-- Marks and the text between them are the whole text. -/
theorem flatMap_source (marks : LeftmostMarks chars stretches) :
    stretches.flatMap Stretch.source = chars := by
  induction marks with
  | none noSign => exact Stretch.flatMap_source_between _
  | next noSign isLevel longest behind ih =>
      rw [List.flatMap_append, List.flatMap_cons, Stretch.flatMap_source_between, ih,
        Stretch.source, List.append_assoc]

/-- The text between marks is not empty and holds no sign. -/
theorem of_text_mem (marks : LeftmostMarks chars stretches) {part : List Char}
    (member : .text part ∈ stretches) : part ≠ [] ∧ ¬ sign <:+: part := by
  have ofBetween {chars : List Char} (noSign : ¬ sign <:+: chars)
      (member : .text part ∈ Stretch.between chars) : part ≠ [] ∧ ¬ sign <:+: part := by
    unfold Stretch.between at member
    split at member
    · cases member
    · rename_i nonempty
      cases List.mem_singleton.mp member
      exact ⟨nonempty, noSign⟩
  induction marks with
  | none noSign => exact ofBetween noSign member
  | next noSign isLevel longest behind ih =>
      rcases List.mem_append.mp member with inFront | later
      · exact ofBetween noSign inFront
      · rcases List.mem_cons.mp later with same | later
        · cases same
        · exact ih later

/-- There is a mark exactly if there is a sign. -/
theorem exists_mark_iff (marks : LeftmostMarks chars stretches) :
    (∃ level requested, .mark level requested ∈ stretches) ↔ sign <:+: chars := by
  cases marks with
  | none noSign =>
      refine iff_of_false ?_ noSign
      rintro ⟨level, requested, member⟩
      unfold Stretch.between at member
      split at member
      · cases member
      · cases List.mem_singleton.mp member
  | @next before level after requested _ noSign isLevel longest behind =>
      refine iff_of_true ⟨level, requested, by simp⟩ ?_
      exact (List.prefix_append _ _).isInfix.trans (List.suffix_append _ _).isInfix

/-- The marks of a text are determined. -/
theorem unique {chars others : List Char} {stretches otherStretches : List Stretch}
    (marks : LeftmostMarks chars stretches) (otherMarks : LeftmostMarks others otherStretches)
    (same : chars = others) : stretches = otherStretches := by
  have hasSign (before after : List Char) : sign <:+: before ++ (sign ++ after) :=
    (List.prefix_append _ _).isInfix.trans (List.suffix_append _ _).isInfix
  induction marks generalizing others otherStretches with
  | none noSign =>
      cases otherMarks with
      | none => rw [same]
      | next => exact absurd (same ▸ hasSign _ _) noSign
  | @next before level after requested stretches noSign isLevel longest behind ih =>
      cases otherMarks with
      | none noOther => exact absurd (same ▸ hasSign _ _) noOther
      | @next earlier other later otherRequested _ noEarlier isOther longestOther otherBehind =>
          obtain ⟨rfl, levels⟩ := append_sign_inj same noSign noEarlier
          have lengths : level.length = other.length :=
            Nat.le_antisymm (longestOther _ _ _ isLevel levels.symm)
              (longest _ _ _ isOther levels)
          obtain ⟨rfl, afterEq⟩ := List.append_inj levels lengths
          rw [isLevel.unique isOther rfl, ih otherBehind afterEq]

/-- A character in front of a text belongs to its first stretch, if that is text and the sign
does not begin with it. -/
theorem cons {char : Char} (noSign : ¬ sign <+: char :: chars)
    (marks : LeftmostMarks chars stretches) :
    ∃ extended, LeftmostMarks (char :: chars) extended ∧
      extended.map Stretch.piece = Piece.cons char (stretches.map Stretch.piece) := by
  cases marks with
  | none noSignBehind =>
      refine ⟨_, .none (mt List.infix_cons_iff.mp (not_or.mpr ⟨noSign, noSignBehind⟩)), ?_⟩
      unfold Stretch.between
      cases chars <;> rfl
  | @next before level after requested stretches noSignBefore isLevel longest behind =>
      have noSignInFront : ¬ sign <:+: char :: before := by
        intro inside
        rcases List.infix_cons_iff.mp inside with atStart | inBefore
        · exact noSign (atStart.trans (List.prefix_append (char :: before) _))
        · exact noSignBefore inBefore
      refine ⟨_, .next noSignInFront isLevel longest behind, ?_⟩
      unfold Stretch.between
      cases before <;> rfl

end LeftmostMarks

/-! ## Reading -/

/-- White space ends at a digit. -/
theorem dropWhile_space_digit {space : List Char} {digit : Char}
    (isSpace : ∀ char ∈ space, isWhiteSpace char = true) (isDigit : isDecimalDigit digit = true)
    (rest : List Char) :
    (space ++ digit :: rest).takeWhile isWhiteSpace = space ∧
      (space ++ digit :: rest).dropWhile isWhiteSpace = digit :: rest := by
  have ends : ∀ char ∈ (digit :: rest).head?, isWhiteSpace char = false := by
    rintro char ⟨⟩
    exact isWhiteSpace_of_isDecimalDigit isDigit
  exact ⟨takeWhile_append_of_ends isSpace ends, dropWhile_append_of_ends isSpace ends⟩

/-- A digit behind white space is read as the level. -/
theorem requestedLevel_digit {space : List Char} {digit : Char} (separated : space ≠ [])
    (isSpace : ∀ char ∈ space, isWhiteSpace char = true) (isDigit : isDecimalDigit digit = true)
    (rest : List Char) : requestedLevel (space ++ digit :: rest) = (digitValue? digit, rest) := by
  have dropped := (dropWhile_space_digit isSpace isDigit rest).2
  have shorter : (digit :: rest).length < (space ++ digit :: rest).length := by
    rw [List.length_append]
    exact Nat.lt_add_of_pos_left (List.length_pos_iff.mpr separated)
  unfold requestedLevel
  simp only [dropped, isDigit, decide_eq_true shorter, Bool.and_self, if_true]

/-- Without such a digit no level is read. -/
theorem requestedLevel_eq_self {chars : List Char}
    (noLevel : ¬ ∃ space digit rest, chars = space ++ digit :: rest ∧ space ≠ [] ∧
      (∀ char ∈ space, isWhiteSpace char = true) ∧ isDecimalDigit digit = true) :
    requestedLevel chars = (none, chars) := by
  have parts := List.takeWhile_append_dropWhile (p := isWhiteSpace) (l := chars)
  unfold requestedLevel
  simp only
  split
  · rename_i digit rest dropped
    rw [dropped] at parts ⊢
    apply if_neg
    intro isLevel
    obtain ⟨shorter, isDigit⟩ := Bool.and_eq_true_iff.mp isLevel
    refine noLevel ⟨_, digit, rest, parts.symm, ?_, fun _ => List.mem_takeWhile_imp, isDigit⟩
    intro noSpace
    rw [noSpace] at parts
    exact absurd (of_decide_eq_true shorter) (Nat.not_lt_of_le (by rw [← parts]; rfl))
  · rfl

/-- Behind a sign the longest level is read. -/
theorem exists_level (chars : List Char) :
    ∃ level, chars = level ++ (requestedLevel chars).2 ∧
      IsLevel level (requestedLevel chars).1 ∧
      ∀ other rest requested, IsLevel other requested → chars = other ++ rest →
        other.length ≤ level.length := by
  by_cases found : ∃ space digit rest, chars = space ++ digit :: rest ∧ space ≠ [] ∧
      (∀ char ∈ space, isWhiteSpace char = true) ∧ isDecimalDigit digit = true
  · obtain ⟨space, digit, rest, rfl, separated, isSpace, isDigit⟩ := found
    rw [requestedLevel_digit separated isSpace isDigit]
    refine ⟨space ++ [digit], by simp, .digit separated isSpace isDigit, ?_⟩
    intro other behind requested isLevel same
    cases isLevel with
    | none => exact Nat.zero_le _
    | @digit otherSpace otherDigit _ isOtherSpace isOtherDigit =>
        -- both spaces are all of the white space at the start
        rw [List.append_assoc, List.singleton_append] at same
        have taken := (dropWhile_space_digit isOtherSpace isOtherDigit behind).1
        rw [← same, (dropWhile_space_digit isSpace isDigit rest).1] at taken
        rw [taken, List.length_append, List.length_append]
        rfl
  · rw [requestedLevel_eq_self found]
    refine ⟨[], rfl, .none, ?_⟩
    intro other rest requested isLevel same
    cases isLevel with
    | none => exact Nat.le_refl _
    | @digit space digit separated isSpace isDigit =>
        rw [List.append_assoc, List.singleton_append] at same
        exact absurd ⟨space, digit, rest, same, separated, isSpace, isDigit⟩ found

/-- With enough fuel the marks of a text are read. -/
theorem exists_marks {fuel : Nat} {chars : List Char} (enough : chars.length ≤ fuel) :
    ∃ stretches, LeftmostMarks chars stretches ∧
      stretches.map Stretch.piece = pieces fuel chars := by
  have empty : LeftmostMarks [] [] := .none (by decide)
  fun_induction pieces fuel chars with
  | case1 chars =>
      rw [List.eq_nil_of_length_eq_zero (Nat.le_zero.mp enough)]
      exact ⟨[], empty, rfl⟩
  | case2 => exact ⟨[], empty, rfl⟩
  | case3 fuel rest requested behind readEq ih =>
      obtain ⟨level, restEq, isLevel, longest⟩ := exists_level rest
      rw [readEq] at restEq isLevel
      have lengths : rest.length = level.length + behind.length := by
        rw [restEq, List.length_append]
      simp only [List.length_cons] at enough
      obtain ⟨stretches, marks, piecesEq⟩ := ih (by omega)
      have noSign : ¬ sign <:+: [] := by decide
      have next := LeftmostMarks.next noSign isLevel (restEq ▸ longest) marks
      rw [← restEq] at next
      exact ⟨_, next, congrArg (Piece.mark requested :: ·) piecesEq⟩
  | case4 fuel char rest noSign ih =>
      obtain ⟨stretches, marks, piecesEq⟩ := ih (Nat.le_of_succ_le_succ enough)
      have noSignHere : ¬ sign <+: char :: rest := by
        rintro ⟨behind, same⟩
        obtain ⟨isSign, restEq⟩ := List.cons.inj same
        exact noSign behind isSign.symm restEq.symm
      obtain ⟨extended, extendedMarks, extendedEq⟩ := marks.cons noSignHere
      exact ⟨extended, extendedMarks, extendedEq.trans (congrArg (Piece.cons char) piecesEq)⟩

/-- The pieces of a text are those of its marks. -/
theorem exists_marks_piecesOf (text : String) :
    ∃ stretches, LeftmostMarks text.toList stretches ∧
      stretches.map Stretch.piece = piecesOf text :=
  exists_marks String.length_toList.le

end TableOfContents

end WikiPress
