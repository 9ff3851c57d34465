import WikiPress.Proofs.Pipe

/-!
# Segments as they are written

To write segments down, the pipes in them are escaped and pipes are put between them.
They are cut apart again where they were joined, as long as no backslash of a segment
comes to stand directly before a pipe: neither before a pipe of its own, whose escape it
would undo, nor at its end before the pipe behind it.
-/

namespace WikiPress.Pipe

/-- Characters with every pipe escaped. -/
def escapeChars (chars : List Char) : List Char :=
  chars.flatMap fun char => if char = '|' then ['\\', '|'] else [char]

/-- A text with every pipe escaped. -/
def escape (text : String) : String :=
  String.ofList (escapeChars text.toList)

@[simp]
theorem escapeChars_pipe (chars : List Char) :
    escapeChars ('|' :: chars) = '\\' :: '|' :: escapeChars chars :=
  rfl

theorem escapeChars_cons {char : Char} (other : char ≠ '|') (chars : List Char) :
    escapeChars (char :: chars) = char :: escapeChars chars := by
  unfold escapeChars
  rw [List.flatMap_cons, if_neg other]
  rfl

theorem mem_of_mem_escapeChars {chars : List Char} {char : Char}
    (member : char ∈ escapeChars chars) : char ∈ chars ∨ char = '\\' := by
  obtain ⟨source, isSource, written⟩ := List.mem_flatMap.mp member
  split at written
  · rename_i isPipe
    rcases List.mem_cons.mp written with backslash | pipe
    · exact .inr backslash
    · rw [List.mem_singleton.mp pipe, ← isPipe]
      exact .inl isSource
  · rw [List.mem_singleton.mp written]
    exact .inl isSource

/-- No pipe that is escaped comes first. -/
theorem head?_escapeChars_ne (chars : List Char) : (escapeChars chars).head? ≠ some '|' := by
  cases chars with
  | nil => exact nofun
  | cons char chars =>
      by_cases isPipe : char = '|'
      · rw [isPipe, escapeChars_pipe]
        simp
      · rw [escapeChars_cons isPipe]
        simpa using isPipe

theorem unescapeChars_cons {char : Char} {chars : List Char} (noPipe : chars.head? ≠ some '|') :
    unescapeChars (char :: chars) = char :: unescapeChars chars := by
  rw [unescapeChars.eq_def]
  split
  · rename_i escaped
    rw [(List.cons.inj escaped).2] at noPipe
    exact absurd rfl noPipe
  · rename_i same
    obtain ⟨rfl, rfl⟩ := List.cons.inj same
    rfl
  · contradiction

/-- Whatever is escaped is restored. -/
@[simp]
theorem unescapeChars_escapeChars (chars : List Char) :
    unescapeChars (escapeChars chars) = chars := by
  induction chars with
  | nil => rfl
  | cons char chars ih =>
      by_cases isPipe : char = '|'
      · rw [isPipe, escapeChars_pipe, unescapeChars, ih]
      · rw [escapeChars_cons isPipe, unescapeChars_cons (head?_escapeChars_ne chars), ih]

/-! ## Cutting what was joined -/

/-- Whether characters end in an odd number of backslashes, given whether those before
them do. -/
def escapingBehind (escaping : Bool) (chars : List Char) : Bool :=
  chars.foldl (fun escaping char => char == '\\' && !escaping) escaping

theorem escapingBehind_eq_false {chars : List Char} (ends : chars.getLast? ≠ some '\\') :
    escapingBehind false chars = false := by
  rcases List.eq_nil_or_concat chars with rfl | ⟨before, last, rfl⟩
  · rfl
  · have other : last ≠ '\\' := by simpa using ends
    simp [escapingBehind, other]

theorem consFirst_modifyHead (char : Char) (chars : List Char) {segments : List (List Char)}
    (nonempty : segments ≠ []) :
    consFirst char (segments.modifyHead (chars ++ ·)) =
      segments.modifyHead (char :: chars ++ ·) := by
  cases segments with
  | nil => exact absurd rfl nonempty
  | cons segment segments => rfl

/-- Escaped characters stay in one segment, unless a backslash stands before a pipe. -/
theorem cut_escapeChars (escaping : Bool) {chars : List Char}
    (clear : escaping = true → chars.head? ≠ some '|') (inside : ¬ ['\\', '|'] <:+: chars)
    (rest : List Char) :
    cut none escaping (escapeChars chars ++ rest) =
      (cut none (escapingBehind escaping chars) rest).modifyHead (escapeChars chars ++ ·) := by
  induction chars generalizing escaping with
  | nil =>
      change cut none escaping rest = (cut none escaping rest).modifyHead id
      rw [List.modifyHead_id, id]
  | cons char chars ih =>
      have insideRest : ¬ ['\\', '|'] <:+: chars := fun found => inside (List.infix_cons found)
      have behind {escaping : Bool} := cut_ne_nil none (escapingBehind escaping chars) rest
      by_cases isPipe : char = '|'
      · subst char
        obtain rfl : escaping = false := Bool.eq_false_iff.mpr fun escapes => clear escapes rfl
        have reached := ih false nofun insideRest
        rw [escapeChars_pipe, List.cons_append, List.cons_append, cut, if_pos rfl, cut,
          if_neg (by decide), if_neg (by decide), reached, consFirst_modifyHead _ _ behind,
          consFirst_modifyHead _ _ behind]
        rfl
      · rw [escapeChars_cons isPipe, List.cons_append, cut]
        by_cases isBackslash : char = '\\'
        · subst char
          have clearRest : chars.head? ≠ some '|' := by
            intro pipe
            obtain ⟨more, rfl⟩ := List.head?_eq_some_iff.mp pipe
            exact inside ⟨[], more, rfl⟩
          rw [if_pos rfl, ih _ (fun _ => clearRest) insideRest, consFirst_modifyHead _ _ behind]
          simp [escapingBehind]
        · have forgets : escapingBehind escaping (char :: chars) = escapingBehind false chars := by
            unfold escapingBehind
            rw [List.foldl_cons, beq_false_of_ne isBackslash, Bool.false_and]
          rw [if_neg isBackslash, if_neg (by simp [isPipe]), ih false nofun insideRest,
            consFirst_modifyHead _ _ behind, forgets]

/-- Segments that are escaped and joined are cut apart again. -/
theorem cut_intercalate {segments : List (List Char)} (nonempty : segments ≠ [])
    (inside : ∀ segment ∈ segments, ¬ ['\\', '|'] <:+: segment)
    (ends : ∀ segment ∈ segments.dropLast, segment.getLast? ≠ some '\\') :
    cut none false (['|'].intercalate (segments.map escapeChars)) =
      segments.map escapeChars := by
  induction segments with
  | nil => exact absurd rfl nonempty
  | cons segment segments ih =>
      obtain ⟨first, later⟩ := List.forall_mem_cons.mp inside
      cases segments with
      | nil =>
          have whole := cut_escapeChars false nofun first []
          rw [List.append_nil] at whole
          rw [List.map_singleton, List.intercalate_singleton, whole, cut, List.modifyHead_cons,
            List.append_nil]
      | cons next segments =>
          rw [List.dropLast_cons_cons] at ends
          obtain ⟨firstEnds, laterEnd⟩ := List.forall_mem_cons.mp ends
          have rest := ih (List.cons_ne_nil _ _) later laterEnd
          rw [List.map_cons] at rest
          rw [List.map_cons, List.map_cons, List.intercalate_cons_cons, List.append_assoc,
            cut_escapeChars false nofun first, escapingBehind_eq_false firstEnds,
            List.singleton_append, cut, if_neg (by decide), if_pos (by decide), Option.map_none,
            rest, List.modifyHead_cons, List.append_nil]

end WikiPress.Pipe
