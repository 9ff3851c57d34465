import Mathlib.Data.List.TakeWhile
import WikiPress.Glob.Braces
import WikiPress.Proofs.Text.Splitting

/-!
# The order of expansions

A pattern that is made of literal text and of groups stands for every text that takes one
alternative from each group.  A choice is told by the numbers of the alternatives, and the
expansions stand in the lexicographic order of the choices.  Every other pattern is expanded as
well: each group that is opened takes a closing brace away, and what is left in the end holds
no group.
-/

namespace WikiPress.Glob

/-! ## Groups -/

/-- Alternatives are the parts between commas. -/
theorem alternatives_eq_splitOn (inner : List Char) : alternatives inner = inner.splitOn ',' := by
  induction inner with
  | nil => rfl
  | cons char chars ih =>
      rw [List.splitOn_cons_eq_if_modifyHead, alternatives, ih]
      by_cases isComma : char = ','
      · rw [if_pos isComma, if_pos (beq_iff_eq.mpr isComma)]
      · rw [if_neg isComma, if_neg (by simpa using isComma)]
        split
        · rename_i empty
          exact absurd empty (List.splitOn_ne_nil _ _)
        · rename_i first rest split
          rw [split]
          rfl

theorem alternatives_ne_nil (inner : List Char) : alternatives inner ≠ [] := by
  rw [alternatives_eq_splitOn]
  exact List.splitOn_ne_nil _ _

theorem subset_of_mem_alternatives {inner alternative : List Char}
    (member : alternative ∈ alternatives inner) : alternative ⊆ inner := by
  rw [alternatives_eq_splitOn] at member
  have part := Text.isInfix_intercalate [','] member
  rw [List.intercalate_splitOn] at part
  exact part.subset

/-- Whether an opening brace stands in a text and a closing one somewhere behind it. -/
def HoldsGroup (chars : List Char) : Prop :=
  ∃ before between after, chars = before ++ '{' :: (between ++ '}' :: after)

section Separators

variable {separator : Char} {before after : List Char} (notBefore : separator ∉ before)

include notBefore

theorem takeWhile_ne_append :
    (before ++ separator :: after).takeWhile (· ≠ separator) = before := by
  apply Text.takeWhile_append_of_ends
  · exact fun char member => decide_eq_true fun same => notBefore (same ▸ member)
  · rintro char ⟨⟩
    exact decide_eq_false fun differs => differs rfl

theorem dropWhile_ne_append :
    (before ++ separator :: after).dropWhile (· ≠ separator) = separator :: after := by
  apply Text.dropWhile_append_of_ends
  · exact fun char member => decide_eq_true fun same => notBefore (same ▸ member)
  · rintro char ⟨⟩
    exact decide_eq_false fun differs => differs rfl

end Separators

theorem dropWhile_ne_eq_nil {separator : Char} {chars : List Char} (absent : separator ∉ chars) :
    chars.dropWhile (· ≠ separator) = [] := by
  rw [List.dropWhile_eq_nil_iff]
  exact fun char member => decide_eq_true fun same => absent (same ▸ member)

/-- The first group stands between the first opening brace and the next closing one. -/
theorem group?_append {before inner : List Char} (noOpening : '{' ∉ before)
    (noClosing : '}' ∉ inner) (after : List Char) :
    group? (before ++ '{' :: (inner ++ '}' :: after)) = some (before, inner, after) := by
  unfold group?
  rw [dropWhile_ne_append noOpening, takeWhile_ne_append noOpening]
  simp only
  rw [dropWhile_ne_append noClosing, takeWhile_ne_append noClosing]

theorem group?_eq_none {chars : List Char} (noOpening : '{' ∉ chars) : group? chars = none := by
  unfold group?
  rw [dropWhile_ne_eq_nil noOpening]

/-- A pattern has a first group, unless it holds none. -/
theorem group?_cases (chars : List Char) :
    (∃ before inner after, chars = before ++ '{' :: (inner ++ '}' :: after) ∧
        '}' ∉ inner ∧ group? chars = some (before, inner, after)) ∨
      (¬ HoldsGroup chars ∧ group? chars = none) := by
  by_cases opens : '{' ∈ chars
  · obtain ⟨before, opened, rfl, noOpening⟩ := List.eq_append_cons_of_mem opens
    by_cases closes : '}' ∈ opened
    · obtain ⟨inner, after, rfl, noClosing⟩ := List.eq_append_cons_of_mem closes
      exact .inl ⟨before, inner, after, rfl, noClosing, group?_append noOpening noClosing after⟩
    · refine .inr ⟨?_, ?_⟩
      · rintro ⟨other, between, after, same⟩
        apply closes
        -- The first opening brace stands no later than the one of the group.
        rcases List.append_eq_append_iff.mp same with ⟨more, _, rest⟩ | ⟨more, split, rest⟩
        · cases more with
          | nil =>
              rw [(List.cons.inj rest).2]
              simp
          | cons first more =>
              rw [(List.cons.inj rest).2]
              simp
        · cases more with
          | nil =>
              rw [← (List.cons.inj rest).2]
              simp
          | cons first more =>
              refine absurd ?_ noOpening
              rw [split, ← (List.cons.inj rest).1]
              simp
      · unfold group?
        rw [dropWhile_ne_append noOpening]
        simp only
        rw [dropWhile_ne_eq_nil closes]
  · refine .inr ⟨?_, group?_eq_none opens⟩
    rintro ⟨before, between, after, rfl⟩
    exact opens (by simp)

/-! ## Expansions -/

theorem expandChars_of_none {chars : List Char} (noGroup : group? chars = none) :
    expandChars chars = [chars] := by
  rw [expandChars]
  split
  · rfl
  · rename_i found
    cases noGroup.symm.trans found

theorem expandChars_of_some {chars before inner after : List Char}
    (found : group? chars = some (before, inner, after)) :
    expandChars chars =
      (alternatives inner).flatMap fun alternative =>
        expandChars (before ++ alternative ++ after) := by
  rw [expandChars]
  split
  · rename_i noGroup
    cases noGroup.symm.trans found
  · rename_i foundAgain
    cases foundAgain.symm.trans found
    simp

/-- The expansions of a pattern, if it takes no more than a number of steps to open the groups
of any of them. -/
def expandWithin : Nat → List Char → Option (List (List Char))
  | 0, chars => if (group? chars).isNone then some [chars] else none
  | depth + 1, chars =>
    match group? chars with
    | none => some [chars]
    | some (before, inner, after) =>
      ((alternatives inner).mapM fun alternative =>
        expandWithin depth (before ++ alternative ++ after)).map List.flatten

/-- Opening a group takes its closing brace away. -/
theorem count_lt_of_mem_alternatives {before inner after alternative : List Char}
    (noClosing : '}' ∉ inner) (member : alternative ∈ alternatives inner) :
    (before ++ alternative ++ after).count '}' <
      (before ++ '{' :: (inner ++ '}' :: after)).count '}' := by
  have none : alternative.count '}' = 0 :=
    List.count_eq_zero.mpr fun inside => noClosing (subset_of_mem_alternatives member inside)
  simp [none]
  omega

/-- A text without a group stands for itself. -/
theorem expandBraces_eq_singleton {pattern : String} (noGroup : ¬ HoldsGroup pattern.toList) :
    expandBraces pattern = [pattern] := by
  rcases group?_cases pattern.toList with ⟨before, inner, after, split, -, -⟩ | ⟨-, isNone⟩
  · exact absurd ⟨before, inner, after, split⟩ noGroup
  · rw [expandBraces, expandChars_of_none isNone, List.map_singleton, String.ofList_toList]

theorem mapM_eq_some {α β : Type} {step : α → Option β} {value : α → β} {elements : List α}
    (steps : ∀ element ∈ elements, step element = some (value element)) :
    elements.mapM step = some (elements.map value) := by
  induction elements with
  | nil => rfl
  | cons element elements ih =>
      obtain ⟨first, others⟩ := List.forall_mem_cons.mp steps
      rw [List.mapM_cons, first, ih others]
      rfl

/-- The groups of a pattern are opened in no more steps than it has closing braces; there is an
expansion, and none of them holds a group. -/
theorem expandWithin_of_count_le {depth : Nat} {chars : List Char}
    (enough : chars.count '}' ≤ depth) :
    expandWithin depth chars = some (expandChars chars) ∧ expandChars chars ≠ [] ∧
      ∀ expansion ∈ expandChars chars, ¬ HoldsGroup expansion := by
  induction depth generalizing chars with
  | zero =>
      rcases group?_cases chars with ⟨before, inner, after, rfl, -, -⟩ | ⟨noGroup, isNone⟩
      · simp at enough
      · rw [expandWithin, expandChars_of_none isNone, isNone]
        simpa using noGroup
  | succ depth ih =>
      rcases group?_cases chars with
        ⟨before, inner, after, rfl, noClosing, found⟩ | ⟨noGroup, isNone⟩
      · have expands : ∀ alternative ∈ alternatives inner, _ := fun alternative member =>
          ih (Nat.le_of_lt_succ
            (Nat.lt_of_lt_of_le (count_lt_of_mem_alternatives noClosing member) enough))
        rw [expandWithin, expandChars_of_some found, found]
        simp only
        rw [mapM_eq_some fun alternative member => (expands alternative member).1]
        refine ⟨rfl, ?_, ?_⟩
        · obtain ⟨first, isFirst⟩ := List.exists_mem_of_ne_nil _ (alternatives_ne_nil inner)
          intro empty
          exact (expands first isFirst).2.1 (List.flatMap_eq_nil_iff.mp empty first isFirst)
        · intro expansion member
          obtain ⟨alternative, chosen, inExpansions⟩ := List.mem_flatMap.mp member
          exact (expands alternative chosen).2.2 expansion inExpansions
      · rw [expandWithin, expandChars_of_none isNone, isNone]
        simpa using noGroup

theorem not_holdsGroup_of_mem_expandBraces {pattern expansion : String}
    (member : expansion ∈ expandBraces pattern) : ¬ HoldsGroup expansion.toList := by
  obtain ⟨chars, isExpansion, rfl⟩ := List.mem_map.mp member
  rw [String.toList_ofList]
  exact (@expandWithin_of_count_le _ pattern.toList le_rfl).2.2 chars isExpansion

/-! ## Patterns of literal text and groups -/

/-- Text without braces. -/
structure Literal where
  chars : List Char
  noOpening : '{' ∉ chars
  noClosing : '}' ∉ chars

/-- Alternatives without braces and commas, of which there is at least one. -/
structure Group where
  alternatives : List (List Char)
  nonempty : alternatives ≠ []
  noOpening : ∀ alternative ∈ alternatives, '{' ∉ alternative
  noClosing : ∀ alternative ∈ alternatives, '}' ∉ alternative
  noComma : ∀ alternative ∈ alternatives, ',' ∉ alternative

/-- A part of a pattern. -/
inductive Segment where
  | literal (text : Literal)
  | group (options : Group)

/-- The alternatives of a group as they stand between its braces. -/
def Group.inner (group : Group) : List Char :=
  [','].intercalate group.alternatives

/-- A part of a pattern as it is written. -/
def Segment.chars : Segment → List Char
  | literal text => text.chars
  | group options => '{' :: (options.inner ++ ['}'])

/-- A pattern as it is written. -/
def textOf (segments : List Segment) : String :=
  String.ofList (segments.flatMap Segment.chars)

/-- The text that takes from each group the alternative of a number, if there are as many
numbers as groups and each is that of an alternative. -/
def chosen? : List Segment → List Nat → Option (List Char)
  | [], [] => some []
  | [], _ :: _ => none
  | .literal text :: rest, choice => (chosen? rest choice).map (text.chars ++ ·)
  | .group _ :: _, [] => none
  | .group options :: rest, number :: choice =>
    (options.alternatives[number]?).bind fun alternative =>
      (chosen? rest choice).map (alternative ++ ·)

/-- All choices, in lexicographic order. -/
def choices : List Segment → List (List Nat)
  | [] => [[]]
  | .literal _ :: rest => choices rest
  | .group options :: rest =>
    (List.range options.alternatives.length).flatMap fun number =>
      (choices rest).map (number :: ·)

namespace Group

variable (options : Group)

@[simp]
theorem alternatives_inner : Glob.alternatives options.inner = options.alternatives := by
  rw [alternatives_eq_splitOn]
  exact List.splitOn_intercalate ',' options.noComma options.nonempty

/-- What stands between alternatives is commas. -/
theorem noClosing_inner : '}' ∉ options.inner := by
  have noClosing := options.noClosing
  unfold inner
  generalize options.alternatives = listed at noClosing ⊢
  induction listed with
  | nil => exact List.not_mem_nil
  | cons first others ih =>
      obtain ⟨notFirst, notOthers⟩ := List.forall_mem_cons.mp noClosing
      by_cases isLast : others = []
      · rwa [isLast, List.intercalate_singleton]
      · rw [List.intercalate_cons_of_ne_nil isLast]
        simp [notFirst, ih notOthers]

end Group

@[simp]
theorem mem_choices_iff {segments : List Segment} {choice : List Nat} :
    choice ∈ choices segments ↔ (chosen? segments choice).isSome = true := by
  induction segments generalizing choice with
  | nil => cases choice <;> simp [choices, chosen?]
  | cons segment rest ih =>
      cases segment with
      | literal text => simp [choices, chosen?, ih]
      | group options =>
          cases choice with
          | nil => simp [choices, chosen?]
          | cons number choice =>
              have split : number :: choice ∈ choices (.group options :: rest) ↔
                  number < options.alternatives.length ∧ choice ∈ choices rest := by
                simp [choices]
              rw [split, ih, chosen?]
              by_cases isNumber : number < options.alternatives.length
              · rw [List.getElem?_eq_getElem isNumber]
                simp [isNumber]
              · rw [List.getElem?_eq_none (Nat.le_of_not_lt isNumber)]
                simp [isNumber]

theorem pairwise_choices (segments : List Segment) : (choices segments).Pairwise (· < ·) := by
  induction segments with
  | nil => exact List.pairwise_singleton _ _
  | cons segment rest ih =>
      cases segment with
      | literal text => exact ih
      | group options =>
          rw [choices, List.pairwise_flatMap]
          constructor
          · intro number _
            rw [List.pairwise_map]
            exact ih.imp fun less => List.Lex.cons less
          · refine List.pairwise_lt_range.imp fun less => ?_
            intro choice member other otherMember
            obtain ⟨_, _, rfl⟩ := List.mem_map.mp member
            obtain ⟨_, _, rfl⟩ := List.mem_map.mp otherMember
            exact List.Lex.rel less

/-- Elements of a list are told by their numbers. -/
theorem flatMap_range_length {α β : Type} {elements : List α} {byNumber : Nat → List β}
    {value : α → List β}
    (same : ∀ number element, elements[number]? = some element → byNumber number = value element) :
    (List.range elements.length).flatMap byNumber = elements.flatMap value := by
  induction elements generalizing byNumber with
  | nil => rfl
  | cons first others ih =>
      have later := ih fun number element => same (number + 1) element
      rw [List.length_cons, List.range_succ_eq_map, List.flatMap_cons, List.flatMap_map,
        List.flatMap_cons, same 0 first rfl, later]

/-- Behind text in which all groups have been opened, a pattern is expanded choice by choice. -/
theorem map_expandChars_append {before : List Char} (noOpening : '{' ∉ before)
    (segments : List Segment) :
    (expandChars (before ++ segments.flatMap Segment.chars)).map some =
      (choices segments).map fun choice => (chosen? segments choice).map (before ++ ·) := by
  induction segments generalizing before with
  | nil =>
      rw [List.flatMap_nil, List.append_nil, expandChars_of_none (group?_eq_none noOpening)]
      simp [choices, chosen?]
  | cons segment rest ih =>
      rw [List.flatMap_cons]
      cases segment with
      | literal text =>
          have stillNone : '{' ∉ before ++ text.chars := by
            simp [noOpening, text.noOpening]
          rw [Segment.chars, ← List.append_assoc, ih stillNone]
          simp [choices, chosen?, Function.comp_def]
      | group options =>
          have found := group?_append noOpening options.noClosing_inner
            (rest.flatMap Segment.chars)
          have whole : before ++ ((Segment.group options).chars ++ rest.flatMap Segment.chars) =
              before ++ '{' :: (options.inner ++ '}' :: rest.flatMap Segment.chars) := by
            simp [Segment.chars]
          rw [whole, expandChars_of_some found, options.alternatives_inner, choices,
            List.map_flatMap, List.map_flatMap]
          refine (flatMap_range_length fun number alternative isAlternative => ?_).symm
          have stillNone : '{' ∉ before ++ alternative := by
            simp [noOpening, options.noOpening alternative (List.mem_of_getElem? isAlternative)]
          rw [ih stillNone, List.map_map]
          simp [chosen?, isAlternative, Function.comp_def]

/-- A pattern of literal text and groups stands for the texts of all choices of one alternative
from each group, in the lexicographic order of the choices.  Every pattern is expanded in no
more steps than it has closing braces; there is an expansion, and in none of them a closing
brace stands behind an opening one. -/
theorem expandBraces_ordered_product :
    (∀ segments : List Segment,
      (choices segments).Pairwise (· < ·) ∧
      (∀ choice, choice ∈ choices segments ↔ (chosen? segments choice).isSome = true) ∧
      (expandBraces (textOf segments)).map some =
        (choices segments).map fun choice => (chosen? segments choice).map String.ofList) ∧
    ∀ pattern : String,
      (expandWithin (pattern.toList.count '}') pattern.toList).map (·.map String.ofList) =
        some (expandBraces pattern) ∧
      expandBraces pattern ≠ [] ∧
      ∀ expansion ∈ expandBraces pattern, ¬ HoldsGroup expansion.toList := by
  constructor
  · intro segments
    refine ⟨pairwise_choices segments, fun _ => mem_choices_iff, ?_⟩
    have expanded := @map_expandChars_append [] List.not_mem_nil segments
    have texts := congrArg (List.map (Option.map String.ofList)) expanded
    unfold expandBraces textOf
    rw [String.toList_ofList]
    simpa [Function.comp_def] using texts
  · intro pattern
    obtain ⟨ends, nonempty, -⟩ := @expandWithin_of_count_le _ pattern.toList le_rfl
    refine ⟨?_, ?_, fun expansion => not_holdsGroup_of_mem_expandBraces⟩
    · rw [ends]
      rfl
    · simpa [expandBraces] using nonempty

/-- Inside another group a group is opened last, with what stands behind the outer one. -/
example : expandBraces "\x7ba\x7bb\x7d,c\x7d\x7d" = ["ab\x7d", "ac\x7d"] := by
  cbv

end WikiPress.Glob
