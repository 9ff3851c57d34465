/-!
# Dividing lists

Facts about lists that are divided at separators, or where a run of one kind of elements
ends, and about lists that are joined by separators.
-/

namespace WikiPress.Text

variable {α β : Type}

/-- The parts between separators hold none. -/
theorem not_mem_of_mem_splitOn [BEq α] [LawfulBEq α] {separator : α} {whole part : List α}
    (member : part ∈ whole.splitOn separator) : separator ∉ part := by
  induction whole generalizing part with
  | nil =>
      rw [List.splitOn_nil] at member
      rw [List.mem_singleton.mp member]
      exact List.not_mem_nil
  | cons first rest ih =>
      rw [List.splitOn_cons_eq_if_modifyHead] at member
      split at member
      · rcases List.mem_cons.mp member with rfl | later
        · exact List.not_mem_nil
        · exact ih later
      · rename_i different
        cases splitEq : rest.splitOn separator with
        | nil => exact absurd splitEq (List.splitOn_ne_nil _ _)
        | cons head parts =>
            rw [splitEq] at ih member
            rcases List.mem_cons.mp member with rfl | later
            · intro inside
              rcases List.mem_cons.mp inside with same | within
              · exact different (beq_iff_eq.mpr same.symm)
              · exact ih List.mem_cons_self within
            · exact ih (List.mem_cons_of_mem head later)

theorem isInfix_intercalate (separator : List α) {part : List α} {parts : List (List α)}
    (member : part ∈ parts) : part <:+: separator.intercalate parts := by
  induction parts with
  | nil => cases member
  | cons first parts ih =>
      by_cases isLast : parts = []
      · rw [isLast, List.mem_singleton] at member
        simp only [isLast, List.intercalate_singleton, member, List.infix_refl]
      · rw [List.intercalate_cons_of_ne_nil isLast, List.append_assoc]
        rcases List.mem_cons.mp member with rfl | later
        · exact (List.prefix_append _ _).isInfix
        · exact (ih later).trans
            ((List.suffix_append _ _).trans (List.suffix_append _ _)).isInfix

theorem map_intercalate (change : α → β) (separator : List α) (parts : List (List α)) :
    (separator.intercalate parts).map change =
      (separator.map change).intercalate (parts.map (·.map change)) := by
  induction parts with
  | nil => rfl
  | cons part parts ih =>
      by_cases isLast : parts = []
      · simp [isLast]
      · rw [List.intercalate_cons_of_ne_nil isLast, List.map_cons,
          List.intercalate_cons_of_ne_nil (by simpa using isLast), List.map_append,
          List.map_append, ih]

/-! ## Runs -/

section Runs

variable {test : α → Bool} {run behind : List α}

/-- A run ends where something else follows, or nothing. -/
theorem ends_dropWhile (test : α → Bool) (whole : List α) :
    ∀ element ∈ (whole.dropWhile test).head?, test element = false := by
  have notPassed := List.head?_dropWhile_not test whole
  intro element isHead
  rwa [Option.mem_def.mp isHead] at notPassed

variable (isRun : ∀ element ∈ run, test element = true)
  (ends : ∀ element ∈ behind.head?, test element = false)

include isRun ends

theorem dropWhile_append_of_ends : (run ++ behind).dropWhile test = behind := by
  rw [List.dropWhile_append_of_pos isRun]
  cases behind with
  | nil => rfl
  | cons next behind => exact List.dropWhile_cons_of_neg (by simpa using ends next rfl)

theorem takeWhile_append_of_ends : (run ++ behind).takeWhile test = run := by
  refine (List.append_left_inj behind).mp ?_
  calc
    _ = (run ++ behind).takeWhile test ++ (run ++ behind).dropWhile test := by
      rw [dropWhile_append_of_ends isRun ends]
    _ = run ++ behind := List.takeWhile_append_dropWhile

end Runs

/-- A list has one run of a kind at its start. -/
theorem append_inj_of_run {test : α → Bool} {run other behind otherBehind : List α}
    (isRun : ∀ element ∈ run, test element = true)
    (isOtherRun : ∀ element ∈ other, test element = true)
    (ends : ∀ element ∈ behind.head?, test element = false)
    (otherEnds : ∀ element ∈ otherBehind.head?, test element = false)
    (same : run ++ behind = other ++ otherBehind) : run = other ∧ behind = otherBehind := by
  constructor
  · rw [← takeWhile_append_of_ends isRun ends, same, takeWhile_append_of_ends isOtherRun otherEnds]
  · rw [← dropWhile_append_of_ends isRun ends, same, dropWhile_append_of_ends isOtherRun otherEnds]

end WikiPress.Text
