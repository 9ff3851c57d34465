import WikiPress.Text.Ascii
import WikiPress.Text.Unicode
import WikiPress.Pipe

/-!
# Invocations and placeholders

A page invokes a fragment by `{{name}}` or `{{name|first|second}}`.  The name is
not empty, does not start with `#`, and holds no brace, pipe or line feed; the
arguments hold no brace and no line feed.  A fragment refers to its arguments by
the placeholders `{{#N}}` and `{{#N|default}}`, counting from one.

Both kinds of call are read by the same walk.  `invocation?` and `placeholder?`
recognise one call at the start of a list of characters and say what follows it;
`pieces` cuts a text into the calls it holds and the characters between them.
-/

namespace WikiPress.Include

open WikiPress.Text

/-- Characters that may stand in the name of an invocation. -/
def isNameChar (char : Char) : Bool :=
  char != '{' && char != '}' && char != '|' && char != '\n'

/-- Characters that may stand in the arguments of an invocation or in the default
of a placeholder. -/
def isArgumentChar (char : Char) : Bool :=
  char != '{' && char != '}' && char != '\n'

/-- A call of a fragment as it stands in a text. -/
structure Invocation where
  name : List Char
  /-- The text behind the first pipe, if there is a pipe. -/
  arguments : Option (List Char)
deriving DecidableEq, Repr

/-- A reference to an argument as it stands in a fragment. -/
structure Placeholder where
  /-- The digits of the argument's number. -/
  number : List Char
  /-- The text to use when there is no such argument. -/
  fallback : Option (List Char)
deriving DecidableEq, Repr

/-- Read the optional `|text` and the two closing braces of a call. -/
def closing? (chars : List Char) : Option (Option (List Char) × List Char) :=
  match chars with
  | '}' :: '}' :: rest => some (none, rest)
  | '|' :: inner =>
    match inner.dropWhile isArgumentChar with
    | '}' :: '}' :: rest => some (some (inner.takeWhile isArgumentChar), rest)
    | _ => none
  | _ => none

/-- Read an invocation at the start of the characters. -/
def invocation? (chars : List Char) : Option (Invocation × List Char) :=
  match chars with
  | '{' :: '{' :: first :: rest =>
    if isNameChar first && first != '#' then
      (closing? (rest.dropWhile isNameChar)).map fun (arguments, rest') =>
        (⟨first :: rest.takeWhile isNameChar, arguments⟩, rest')
    else
      none
  | _ => none

/-- Read a placeholder at the start of the characters. -/
def placeholder? (chars : List Char) : Option (Placeholder × List Char) :=
  match chars with
  | '{' :: '{' :: '#' :: first :: rest =>
    if isDecimalDigit first then
      (closing? (rest.dropWhile isDecimalDigit)).map fun (fallback, rest') =>
        (⟨first :: rest.takeWhile isDecimalDigit, fallback⟩, rest')
    else
      none
  | _ => none

theorem length_dropWhile_le (test : Char → Bool) (chars : List Char) :
    (chars.dropWhile test).length ≤ chars.length :=
  (List.dropWhile_suffix test).length_le

/-- What follows a call is shorter than the text it starts. -/
theorem length_lt_of_closing? {chars rest : List Char} {text : Option (List Char)}
    (found : closing? chars = some (text, rest)) : rest.length < chars.length := by
  unfold closing? at found
  split at found
  · simp only [Option.some.injEq, Prod.mk.injEq] at found
    obtain ⟨-, rfl⟩ := found
    simp only [List.length_cons]
    omega
  · rename_i inner
    split at found
    · rename_i rest' dropped
      simp only [Option.some.injEq, Prod.mk.injEq] at found
      obtain ⟨-, rfl⟩ := found
      have bound := length_dropWhile_le isArgumentChar inner
      rw [dropped] at bound
      simp only [List.length_cons] at bound ⊢
      omega
    · simp at found
  · simp at found

theorem length_lt_of_invocation? {chars rest : List Char} {call : Invocation}
    (found : invocation? chars = some (call, rest)) : rest.length < chars.length := by
  unfold invocation? at found
  split at found
  · rename_i first inner
    split at found
    · obtain ⟨⟨text, rest'⟩, closed, result⟩ := Option.map_eq_some_iff.mp found
      simp only [Prod.mk.injEq] at result
      obtain ⟨-, rfl⟩ := result
      have bound := length_dropWhile_le isNameChar inner
      have shorter := length_lt_of_closing? closed
      simp only [List.length_cons]
      omega
    · simp at found
  · simp at found

theorem length_lt_of_placeholder? {chars rest : List Char} {call : Placeholder}
    (found : placeholder? chars = some (call, rest)) : rest.length < chars.length := by
  unfold placeholder? at found
  split at found
  · rename_i first inner
    split at found
    · obtain ⟨⟨text, rest'⟩, closed, result⟩ := Option.map_eq_some_iff.mp found
      simp only [Prod.mk.injEq] at result
      obtain ⟨-, rfl⟩ := result
      have bound := length_dropWhile_le isDecimalDigit inner
      have shorter := length_lt_of_closing? closed
      simp only [List.length_cons]
      omega
    · simp at found
  · simp at found

/-- A piece of a text: a call, or a character outside every call. -/
inductive Piece (α : Type) where
  | call (value : α) (source : List Char)
  | char (value : Char)
deriving Repr

/-- The number of characters that were consumed between a text and its rest. -/
def consumed (chars rest : List Char) : List Char :=
  chars.take (chars.length - rest.length)

/-- The invocations of a text and the characters between them.  A call is read as
soon as one starts, so calls do not overlap. -/
def invocationPieces (chars : List Char) : List (Piece Invocation) :=
  match chars with
  | [] => []
  | char :: tail =>
    match _found : invocation? (char :: tail) with
    | some (call, rest) =>
      .call call (consumed (char :: tail) rest) :: invocationPieces rest
    | none => .char char :: invocationPieces tail
termination_by chars.length
decreasing_by
  · exact length_lt_of_invocation? _found
  · simp

/-- The placeholders of a fragment and the characters between them. -/
def placeholderPieces (chars : List Char) : List (Piece Placeholder) :=
  match chars with
  | [] => []
  | char :: tail =>
    match _found : placeholder? (char :: tail) with
    | some (call, rest) =>
      .call call (consumed (char :: tail) rest) :: placeholderPieces rest
    | none => .char char :: placeholderPieces tail
termination_by chars.length
decreasing_by
  · exact length_lt_of_placeholder? _found
  · simp

/-- The invocations of a text, in order. -/
def invocations (text : String) : List Invocation :=
  (invocationPieces text.toList).filterMap fun
    | .call call _ => some call
    | .char _ => none

/-- The characters of a list of pieces, with a text for every call. -/
def Piece.render {α : Type} (textOf : α → List Char → List Char) :
    List (Piece α) → List Char
  | [] => []
  | .call value source :: pieces => textOf value source ++ Piece.render textOf pieces
  | .char value :: pieces => value :: Piece.render textOf pieces

/-- Texts that are the same for all calls of a list lead to the same characters. -/
theorem Piece.render_congr {α : Type} {textOf other : α → List Char → List Char}
    {pieces : List (Piece α)}
    (same : ∀ value source, Piece.call value source ∈ pieces →
      other value source = textOf value source) :
    Piece.render other pieces = Piece.render textOf pieces := by
  induction pieces with
  | nil => rfl
  | cons piece pieces ih =>
      have rest := ih fun value source member =>
        same value source (List.mem_cons_of_mem piece member)
      cases piece with
      | call value source =>
          have first := same value source List.mem_cons_self
          simp only [Piece.render, first, rest]
      | char value => simp only [Piece.render, rest]

/-- The arguments of an invocation: none when nothing stands behind the pipe,
otherwise the segments between separating pipes, each with its escaped pipes
restored. -/
def Invocation.argumentList (call : Invocation) : List String :=
  match call.arguments with
  | none => []
  | some [] => []
  | some text => (Pipe.segments none text).map fun segment =>
      String.ofList (Pipe.unescapeChars segment)

/-- The largest number that a placeholder can hold; longer numbers name no
argument. -/
def placeholderMax : Nat :=
  UInt64.size - 1

/-- The argument that a placeholder refers to.  Numbers are written with ASCII
digits; digits of other scripts are read as part of a placeholder but name
nothing, and neither does zero. -/
def Placeholder.argument? (place : Placeholder) (arguments : List String) : Option String :=
  match decimal? place.number with
  | some (index + 1) => if index + 1 ≤ placeholderMax then arguments[index]? else none
  | _ => none

/-- The text that takes the place of a placeholder. -/
def Placeholder.fill (place : Placeholder) (arguments : List String) : List Char :=
  match place.argument? arguments with
  | some value => value.toList
  | none => place.fallback.getD []

/-- A fragment with its placeholders filled. -/
def fillPlaceholders (fragment : String) (arguments : List String) : String :=
  String.ofList <| Piece.render (fun place _ => place.fill arguments)
    (placeholderPieces fragment.toList)

end WikiPress.Include
