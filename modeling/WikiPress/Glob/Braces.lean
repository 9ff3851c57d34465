/-!
# Alternatives in braces

A pattern may hold groups of alternatives: `*.{css,png}` stands for `*.css` and
`*.png`.  A group reaches from the first opening brace to the next closing brace,
and its alternatives are separated by commas.  Groups are expanded from left to
right, so the expansions come in the order of the choices that they make.
-/

namespace WikiPress.Glob

/-- The alternatives between commas. -/
def alternatives : List Char → List (List Char)
  | [] => [[]]
  | char :: chars =>
    if char = ',' then
      [] :: alternatives chars
    else
      match alternatives chars with
      | [] => [[char]]
      | alternative :: rest => (char :: alternative) :: rest

/-- An alternative is no longer than its group. -/
theorem length_le_of_mem_alternatives {inner alternative : List Char}
    (member : alternative ∈ alternatives inner) : alternative.length ≤ inner.length := by
  induction inner generalizing alternative with
  | nil => simp_all [alternatives]
  | cons char chars ih =>
      simp only [alternatives] at member
      split at member
      · rcases List.mem_cons.mp member with rfl | member
        · simp
        · exact Nat.le_succ_of_le (ih member)
      · split at member
        · simp_all
        · rename_i first rest split
          rcases List.mem_cons.mp member with rfl | member
          · have := @ih first (by simp [split])
            simpa using this
          · exact Nat.le_succ_of_le (ih (by simp [split, member]))

/-- The first group of a pattern: what stands before it, between its braces, and
behind it. -/
def group? (chars : List Char) : Option (List Char × List Char × List Char) :=
  match chars.dropWhile (· ≠ '{') with
  | _ :: opened =>
    match opened.dropWhile (· ≠ '}') with
    | _ :: after => some (chars.takeWhile (· ≠ '{'), opened.takeWhile (· ≠ '}'), after)
    | [] => none
  | [] => none

/-- The parts of a pattern around its first group leave out the two braces. -/
theorem length_of_group? {chars before inner after : List Char}
    (found : group? chars = some (before, inner, after)) :
    before.length + inner.length + after.length + 2 = chars.length := by
  unfold group? at found
  split at found
  · rename_i brace opened dropped
    split at found
    · rename_i brace' rest dropped'
      simp at found
      obtain ⟨rfl, rfl, rfl⟩ := found
      have outer := congrArg List.length (List.takeWhile_append_dropWhile
        (p := fun char => decide (char ≠ '{')) (l := chars))
      have within := congrArg List.length (List.takeWhile_append_dropWhile
        (p := fun char => decide (char ≠ '}')) (l := opened))
      rw [dropped] at outer
      rw [dropped'] at within
      simp at outer within ⊢
      omega
    · simp at found
  · simp at found

/-- The patterns that a pattern with groups stands for. -/
def expandChars (chars : List Char) : List (List Char) :=
  match _found : group? chars with
  | none => [chars]
  | some (before, inner, after) =>
    (alternatives inner).attach.flatMap fun ⟨alternative, _member⟩ =>
      expandChars (before ++ alternative ++ after)
termination_by chars.length
decreasing_by
  have parts := length_of_group? _found
  have bound := length_le_of_mem_alternatives _member
  simp
  omega

/-- The patterns that a pattern with groups stands for, in the order of the
choices. -/
def expandBraces (pattern : String) : List String :=
  (expandChars pattern.toList).map String.ofList

end WikiPress.Glob
