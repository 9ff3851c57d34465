import WikiPress.Markdown.LineCursor

/-!
# What a scan reads

A scan of a window goes on as long as the bytes that it reads pass its test.  Here its
outcome is told from the bytes: where the first byte stands that fails, no scan goes
further.  Spaces at the start of a line are what open containers claim of it.
-/

namespace WikiPress.Markdown

open Text

/-- A character that passes a test is none that fails it. -/
theorem ne_of_passes {test : Char → Bool} {char other : Char} (passes : test char = true)
    (fails : test other = false) : char ≠ other := by
  rintro rfl
  rw [passes] at fails
  cases fails

namespace Window

variable {window : Window} {offset start stop : Nat} {char : Char} {test : Char → Bool}

/-! ## Single bytes -/

theorem lt_stop_of_byte? (found : window.byte? offset = some char) : offset < window.stop := by
  unfold byte? at found
  split at found
  · assumption
  · cases found

theorem has_of_byte? (found : window.byte? offset = some char) (other : Char) :
    window.has offset other = (char == other) := by
  unfold has
  rw [found]
  rfl

theorem holds_of_byte? (found : window.byte? offset = some char) (test : Char → Bool) :
    window.holds offset test = test char := by
  unfold holds
  rw [found]
  rfl

theorem lt_stop_of_holds (holds : window.holds offset test = true) : offset < window.stop := by
  unfold Window.holds at holds
  cases found : window.byte? offset with
  | none =>
      rw [found] at holds
      cases holds
  | some char => exact lt_stop_of_byte? found

theorem byte?_of_has (has : window.has offset char = true) : window.byte? offset = some char :=
  eq_of_beq has

theorem byteAt?_of_byte? (found : window.byte? offset = some char) :
    byteAt? window.text offset = some char := by
  have inside := lt_stop_of_byte? found
  unfold byte? at found
  rwa [if_pos inside] at found

@[simp]
theorem byte?_whole (text : String) (offset : Nat) :
    (Window.whole text).byte? offset = byteAt? text offset := by
  unfold byte? Window.whole byteAt?
  split <;> rfl

/-- In front of its end, a part of a window reads what the window reads. -/
theorem byte?_before (inside : offset < stop) :
    (window.before stop).byte? offset = window.byte? offset := by
  unfold byte? before
  have same : offset < min window.stop stop ↔ offset < window.stop := by omega
  simp only [same]

theorem byte?_eq_none (behind : window.stop ≤ offset) : window.byte? offset = none :=
  if_neg (Nat.not_lt.mpr behind)

/-! ## Scans -/

theorem skipWhile_of_fails (fails : window.holds offset test = false) :
    window.skipWhile test offset = offset := by
  unfold skipWhile
  rw [fails]
  simp

/-- A scan stops at the first byte that fails. -/
theorem skipWhile_eq (inOrder : start ≤ stop)
    (passes : ∀ offset, start ≤ offset → offset < stop → window.holds offset test = true)
    (fails : window.holds stop test = false) : window.skipWhile test start = stop := by
  induction distance : stop - start generalizing start with
  | zero =>
      have same : start = stop := by omega
      rw [same]
      exact skipWhile_of_fails fails
  | succ distance ih =>
      have passed := passes start (Nat.le_refl start) (by omega)
      unfold skipWhile
      rw [if_pos (lt_stop_of_holds passed), if_pos passed]
      exact ih (by omega) (fun offset startLe => passes offset (by omega)) (by omega)

/-- No scan passes a byte that fails. -/
theorem skipWhile_le (inOrder : start ≤ stop) (fails : window.holds stop test = false) :
    window.skipWhile test start ≤ stop := by
  induction distance : stop - start generalizing start with
  | zero =>
      have same : start = stop := by omega
      exact Nat.le_of_eq (by rw [same, skipWhile_of_fails fails])
  | succ distance ih =>
      unfold skipWhile
      split
      · split
        · exact ih (by omega) (by omega)
        · exact inOrder
      · exact inOrder

theorem lt_skipWhile (passes : window.holds offset test = true) :
    offset < window.skipWhile test offset := by
  unfold skipWhile
  rw [if_pos (lt_stop_of_holds passes), if_pos passes]
  exact window.le_skipWhile test (offset + 1)

/-- Nothing is cut off behind a byte that fails. -/
theorem trimBack_of_fails (low : Nat) (fails : window.holds offset test = false) :
    window.trimBack test low (offset + 1) = offset + 1 := by
  unfold trimBack
  rw [fails]
  simp

/-! ## Lines -/

variable (found : window.byte? offset = some char)

include found

theorem repeats_of_ne {mark : Char} (other : char ≠ mark) : window.repeats mark offset = 0 := by
  unfold repeats
  rw [skipWhile_of_fails (by rw [holds_of_byte? found]; simpa using other), Nat.sub_self]

theorem lineEnd?_of_byte? (noEnd : isLineEnd char = false) : window.lineEnd? offset = none := by
  unfold isLineEnd at noEnd
  unfold lineEnd?
  rw [found]
  split
  · contradiction
  · rename_i newline
    cases newline
    cases noEnd
  · rename_i carriageReturn
    cases carriageReturn
    cases noEnd
  · rfl

theorem skipBlanks_of_byte? (noBlank : isLineBlank char = false) :
    window.skipBlanks offset = offset :=
  skipWhile_of_fails (by rw [holds_of_byte? found, noBlank])

theorem blankRest?_of_byte? (noBlank : isAsciiBlank char = false) :
    window.blankRest? offset = none := by
  unfold isAsciiBlank at noBlank
  obtain ⟨noLineBlank, noEnd⟩ := Bool.or_eq_false_iff.mp noBlank
  unfold blankRest?
  rw [skipBlanks_of_byte? found noLineBlank]
  exact lineEnd?_of_byte? found noEnd

theorem isBlankRest_of_byte? (noBlank : isAsciiBlank char = false) :
    window.isBlankRest offset = false := by
  unfold isBlankRest
  rw [blankRest?_of_byte? found noBlank]
  rfl

omit found in
theorem lineEnd?_newline (found : window.byte? offset = some '\n') :
    window.lineEnd? offset = some (offset + 1) := by
  unfold lineEnd?
  simp only [found]

omit found in
theorem lineEnd?_of_stop_le (behind : window.stop ≤ offset) :
    window.lineEnd? offset = some offset := by
  unfold lineEnd?
  rw [byte?_eq_none behind]

end Window

/-! ## Indentation -/

namespace LineCursor

variable {window : Window} {position columnZero : Nat}

/-- A cursor with no columns of a tab behind it claims the bytes of the line only. -/
theorem claim_of_pending_eq_zero (columns : Nat) :
    (⟨window, position, columnZero, 0⟩ : LineCursor).claim columns =
      claimBytes ⟨window, position, columnZero, 0⟩ columns := by
  unfold claim
  simp

/-- Nothing can be claimed where neither a space nor a tab stands. -/
theorem claim_of_noSpace (columns : Nat) (noSpace : window.byte? position ≠ some ' ')
    (noTab : window.byte? position ≠ some '\t') :
    (⟨window, position, columnZero, 0⟩ : LineCursor).claim columns =
      (⟨window, position, columnZero, 0⟩, columns) := by
  rw [claim_of_pending_eq_zero]
  unfold claimBytes
  split
  · split
    · contradiction
    · contradiction
    · rfl
  · rfl

theorem claimUpTo_of_noSpace (columns : Nat) (noSpace : window.byte? position ≠ some ' ')
    (noTab : window.byte? position ≠ some '\t') :
    (⟨window, position, columnZero, 0⟩ : LineCursor).claimUpTo columns =
      (⟨window, position, columnZero, 0⟩, 0) := by
  unfold claimUpTo
  rw [claim_of_noSpace columns noSpace noTab]
  simp

/-- Spaces are claimed. -/
theorem claim_spaces {columns : Nat}
    (spaces : ∀ offset, position ≤ offset → offset < position + columns →
      window.byte? offset = some ' ') :
    (⟨window, position, columnZero, 0⟩ : LineCursor).claim columns =
      (⟨window, position + columns, columnZero, 0⟩, 0) := by
  rw [claim_of_pending_eq_zero]
  induction columns generalizing position with
  | zero =>
      unfold claimBytes
      simp
  | succ columns ih =>
      unfold claimBytes
      rw [if_pos (Nat.succ_pos columns)]
      simp only [spaces position (Nat.le_refl position) (by omega), Nat.add_sub_cancel]
      rw [ih fun offset startLe inside => spaces offset (by omega) (by omega)]
      congr 2
      omega

/-- There is no mark of a quote where another byte stands. -/
theorem quoteMark?_of_byte? {char : Char} (found : window.byte? position = some char)
    (other : char ≠ '>') :
    (⟨window, position, columnZero, 0⟩ : LineCursor).quoteMark? = none := by
  unfold quoteMark? take?
  rw [Window.has_of_byte? found, beq_false_of_ne other]
  rfl

end LineCursor

end WikiPress.Markdown
