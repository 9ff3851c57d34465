import WikiPress.Pipe

/-!
# Segments between pipes

Segments are cut out of a text without losing anything but the pipes between them: with
these put back, the text is whole again.
-/

namespace WikiPress.Pipe

theorem cut_ne_nil (cuts : Option Nat) (escaping : Bool) (chars : List Char) :
    cut cuts escaping chars ≠ [] := by
  cases chars with
  | nil => simp [cut]
  | cons char chars =>
      unfold cut
      split
      · cases cut cuts (!escaping) chars <;> simp [consFirst]
      · split
        · simp
        · cases cut cuts false chars <;> simp [consFirst]

theorem intercalate_consFirst (char : Char) {segments : List (List Char)}
    (nonempty : segments ≠ []) :
    ['|'].intercalate (consFirst char segments) = char :: ['|'].intercalate segments := by
  cases segments with
  | nil => exact absurd rfl nonempty
  | cons segment segments =>
      cases segments with
      | nil => simp [consFirst]
      | cons next segments => simp [consFirst, List.intercalate_cons_cons]

@[simp]
theorem intercalate_cut (cuts : Option Nat) (escaping : Bool) (chars : List Char) :
    ['|'].intercalate (cut cuts escaping chars) = chars := by
  induction chars generalizing cuts escaping with
  | nil => rfl
  | cons char chars ih =>
      unfold cut
      split
      · rw [intercalate_consFirst char (cut_ne_nil _ _ _), ih]
      · split
        · rename_i separates
          have isPipe : char = '|' := by simp_all
          rw [List.intercalate_cons_of_ne_nil (cut_ne_nil _ _ _), ih, isPipe]
          rfl
        · rw [intercalate_consFirst char (cut_ne_nil _ _ _), ih]

/-- The segments of a text, with pipes between them, are the text. -/
@[simp]
theorem intercalate_segments (limit : Option Nat) (chars : List Char) :
    ['|'].intercalate (segments limit chars) = chars :=
  intercalate_cut _ _ _

/-- Behind the first segment comes a pipe, and then the second one. -/
theorem of_segments_eq_cons_cons {limit : Option Nat} {chars first second : List Char}
    {more : List (List Char)} (cutInto : segments limit chars = first :: second :: more) :
    ∃ rest, chars = first ++ '|' :: (second ++ rest) := by
  have whole := intercalate_segments limit chars
  rw [cutInto, List.intercalate_cons_cons] at whole
  cases more with
  | nil => exact ⟨[], by simpa using whole.symm⟩
  | cons third more =>
      rw [List.intercalate_cons_cons] at whole
      exact ⟨'|' :: ['|'].intercalate (third :: more), by simpa using whole.symm⟩

/-- Cutting brings no characters in. -/
theorem mem_of_mem_cut {cuts : Option Nat} {escaping : Bool} {chars segment : List Char}
    (isSegment : segment ∈ cut cuts escaping chars) {char : Char} (member : char ∈ segment) :
    char ∈ chars := by
  have of_consFirst {first : Char} {segments : List (List Char)} {chars : List Char}
      (inside : ∀ segment ∈ segments, ∀ char ∈ segment, char ∈ chars) :
      ∀ segment ∈ consFirst first segments, ∀ char ∈ segment, char ∈ first :: chars := by
    cases segments with
    | nil =>
        intro segment isSegment char member
        rw [List.mem_singleton.mp isSegment] at member
        rw [List.mem_singleton.mp member]
        exact List.mem_cons_self
    | cons head segments =>
        intro segment isSegment char member
        rcases List.mem_cons.mp isSegment with rfl | later
        · rcases List.mem_cons.mp member with rfl | behind
          · exact List.mem_cons_self
          · exact List.mem_cons_of_mem _ (inside head List.mem_cons_self char behind)
        · exact List.mem_cons_of_mem _
            (inside segment (List.mem_cons_of_mem _ later) char member)
  induction chars generalizing cuts escaping segment char with
  | nil =>
      rw [List.mem_singleton.mp isSegment] at member
      cases member
  | cons first chars ih =>
      have inside {cuts : Option Nat} {escaping : Bool} :
          ∀ segment ∈ cut cuts escaping chars, ∀ char ∈ segment, char ∈ chars :=
        fun segment isSegment char member => ih isSegment member
      unfold cut at isSegment
      split at isSegment
      · exact of_consFirst inside segment isSegment char member
      · split at isSegment
        · rcases List.mem_cons.mp isSegment with rfl | later
          · cases member
          · exact List.mem_cons_of_mem _ (ih later member)
        · exact of_consFirst inside segment isSegment char member

theorem mem_of_mem_unescapeChars {chars : List Char} {char : Char}
    (member : char ∈ unescapeChars chars) : char ∈ chars := by
  fun_induction unescapeChars chars with
  | case1 rest ih =>
      rcases List.mem_cons.mp member with rfl | behind
      · simp
      · exact List.mem_cons_of_mem _ (List.mem_cons_of_mem _ (ih behind))
  | case2 first rest _ ih =>
      rcases List.mem_cons.mp member with rfl | behind
      · exact List.mem_cons_self
      · exact List.mem_cons_of_mem _ (ih behind)
  | case3 => cases member

end WikiPress.Pipe
