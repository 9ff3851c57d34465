import WikiPress.Text.Position

/-!
# Splitting at pipes

Wiki links and include invocations separate their parts by `|`.  A pipe behind
an odd number of backslashes is part of the text; behind an even number of them
it separates.  `segments` cuts a list of characters at its separators, `ranges`
says where the segments lie, and `unescape` turns `\|` back into `|`.
-/

namespace WikiPress.Pipe

/-- Put a character in front of the first segment. -/
def consFirst (char : Char) : List (List Char) → List (List Char)
  | [] => [[char]]
  | segment :: segments => (char :: segment) :: segments

/-- Cut at separating pipes.  `cuts` bounds the number of cuts, when there is a
bound, and `escaping` tells whether the characters before end in an odd number of
backslashes. -/
def cut (cuts : Option Nat) (escaping : Bool) : List Char → List (List Char)
  | [] => [[]]
  | char :: chars =>
    if char = '\\' then
      consFirst char (cut cuts (!escaping) chars)
    else if char = '|' && !escaping && cuts != some 0 then
      [] :: cut (cuts.map (· - 1)) false chars
    else
      consFirst char (cut cuts false chars)

/-- The segments between separating pipes.  A limit of `n` gives at most `n`
segments, the last of which keeps all further pipes; limits 0 and 1 keep the text
whole. -/
def segments (limit : Option Nat) (chars : List Char) : List (List Char) :=
  cut (limit.map (· - 1)) false chars

/-- The byte ranges of consecutive segments, one separator apart, from `start`. -/
def rangesFrom (start : Nat) : List (List Char) → List Span
  | [] => []
  | segment :: segments =>
    let stop := start + Text.byteLength segment
    ⟨start, stop⟩ :: rangesFrom (stop + 1) segments

/-- The segments of a text. -/
def split (text : String) (limit : Option Nat) : List String :=
  (segments limit text.toList).map String.ofList

/-- The byte ranges of the segments of a text. -/
def ranges (text : String) (limit : Option Nat) : List Span :=
  rangesFrom 0 (segments limit text.toList)

/-- Characters with every escaped pipe replaced by a pipe. -/
def unescapeChars : List Char → List Char
  | '\\' :: '|' :: chars => '|' :: unescapeChars chars
  | char :: chars => char :: unescapeChars chars
  | [] => []

/-- A text with every escaped pipe replaced by a pipe. -/
def unescape (text : String) : String :=
  String.ofList (unescapeChars text.toList)

end WikiPress.Pipe
