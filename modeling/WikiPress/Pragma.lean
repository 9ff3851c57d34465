import WikiPress.Text.Unicode

/-!
# Pragmas

A directive `#keyword` begins a line and takes all of it; the keyword is as long as
it can be, so `#titles` is not `#title`.  A `#title` directive sets the title of its
page and is blanked; the line break behind it stays, so the lines around it keep
their places.  Any other directive is left as it is.

A text is searched once, from left to right.  What was taken as a directive is not
looked at again, and the last title wins.
-/

namespace WikiPress.Pragma

open WikiPress.Text

/-- What the pragmas of a page say about it. -/
structure Pragmas where
  title : Option String := none
deriving DecidableEq, Repr, Inhabited

/-- A directive as it stands at the start of a line. -/
structure Directive where
  keyword : List Char
  /-- The rest of the line. -/
  value : List Char
deriving DecidableEq, Repr

namespace Directive

/-- A directive as it is written. -/
def write (directive : Directive) : List Char :=
  '#' :: (directive.keyword ++ directive.value)

/-- The title that a directive sets. -/
def title? (directive : Directive) : Option String :=
  if directive.keyword = "title".toList then some (trim (String.ofList directive.value))
  else none

/-- What stays of a directive. -/
def remainder (directive : Directive) : List Char :=
  if directive.title?.isSome then [] else directive.write

end Directive

/-- Read a directive at the start of a line; the line break is left. -/
def directive? (chars : List Char) : Option (Directive × List Char) :=
  match chars with
  | '#' :: behind =>
    let rest := behind.dropWhile isWordChar
    match behind.takeWhile isWordChar with
    | [] => none
    | keyword =>
      some (⟨keyword, rest.takeWhile (· != '\n')⟩, rest.dropWhile (· != '\n'))
  | _ => none

/-- What follows a directive is shorter than the text it starts. -/
theorem length_lt_of_directive? {chars rest : List Char} {directive : Directive}
    (found : directive? chars = some (directive, rest)) : rest.length < chars.length := by
  unfold directive? at found
  split at found
  · rename_i behind
    split at found
    · cases found
    · cases found
      calc
        _ ≤ (behind.dropWhile isWordChar).length := (List.dropWhile_suffix _).length_le
        _ ≤ behind.length := (List.dropWhile_suffix _).length_le
        _ < behind.length + 1 := Nat.lt_succ_self _
  · cases found

/-- Search a text for directives, behind a title that was found before: what is left of
the text, and the last title.  Directives are looked for where a line starts. -/
def extractFrom (lineStart : Bool) (title : Option String) (chars : List Char) :
    List Char × Option String :=
  match chars with
  | [] => ([], title)
  | char :: tail =>
    match _found : if lineStart then directive? (char :: tail) else none with
    | some (directive, rest) =>
      let (kept, last) := extractFrom false (directive.title?.or title) rest
      (directive.remainder ++ kept, last)
    | none =>
      let (kept, last) := extractFrom (char == '\n') title tail
      (char :: kept, last)
termination_by chars.length
decreasing_by
  · split at _found
    · exact length_lt_of_directive? _found
    · cases _found
  · simp

/-- Blank the title directives of a text and report the last title. -/
def extract (text : String) : String × Pragmas :=
  let (kept, title) := extractFrom true none text.toList
  (String.ofList kept, ⟨title⟩)

end WikiPress.Pragma
