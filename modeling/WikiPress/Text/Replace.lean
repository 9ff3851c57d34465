/-!
# Replacing every occurrence of a pattern

`replace pattern value text` walks through a text from left to right.  Where the
pattern starts it writes the value and goes on behind the occurrence, so
occurrences never overlap and nothing that was written is looked at again.
-/

namespace WikiPress.Text

/-- What follows `pattern` in `chars`, if `chars` starts with it. -/
def after? : List Char → List Char → Option (List Char)
  | [], chars => some chars
  | _ :: _, [] => none
  | expected :: pattern, char :: chars =>
    if char = expected then after? pattern chars else none

@[simp]
theorem after?_nil (chars : List Char) : after? [] chars = some chars := by
  cases chars <;> rfl

/-- What follows a pattern is no longer than the text it was found in. -/
theorem length_le_of_after? {pattern chars rest : List Char}
    (found : after? pattern chars = some rest) : rest.length ≤ chars.length := by
  induction pattern generalizing chars with
  | nil => simp_all
  | cons expected pattern ih =>
      cases chars with
      | nil => simp [after?] at found
      | cons char chars =>
          simp only [after?] at found
          split at found
          · exact Nat.le_succ_of_le (ih found)
          · simp at found

/-- The characters with every occurrence of `first :: pattern` replaced. -/
def replaceChars (first : Char) (pattern value : List Char) : List Char → List Char
  | [] => []
  | char :: chars =>
    if char = first then
      match _found : after? pattern chars with
      | some rest => value ++ replaceChars first pattern value rest
      | none => char :: replaceChars first pattern value chars
    else
      char :: replaceChars first pattern value chars
termination_by chars => chars.length
decreasing_by
  · exact Nat.lt_succ_of_le (length_le_of_after? _found)
  all_goals simp

/-- The text with every occurrence of a pattern replaced.  The empty pattern
occurs nowhere. -/
def replace (pattern value text : String) : String :=
  match pattern.toList with
  | [] => text
  | first :: rest => String.ofList (replaceChars first rest value.toList text.toList)

end WikiPress.Text
