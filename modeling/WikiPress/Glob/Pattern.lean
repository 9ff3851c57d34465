import WikiPress.Text.Ascii

/-!
# Glob patterns

A pattern describes paths below a directory.  `?` stands for one character, `*`
for any characters inside one part of a path, `**` for any number of whole parts,
and `[abc]`, `[a-z]`, `[!abc]` for one character of a set or outside it.  Letters
of ASCII match in either case, and only a slash in the pattern matches a slash in
the path, except where `**` stands.

`Pattern.parse` reads a pattern or says why it is none; `Pattern.accepts` tells
whether a path matches.
-/

namespace WikiPress.Glob

open WikiPress.Text

/-- A member of a character set. -/
inductive CharRange where
  | single (char : Char)
  | range (first last : Char)
deriving DecidableEq, Repr

/-- An element of a pattern. -/
inductive Element where
  | char (char : Char)
  | anyChar
  /-- Characters of one part of a path. -/
  | anySequence
  /-- Whole parts of a path. -/
  | anyParts
  | within (set : List CharRange)
  | outside (set : List CharRange)
deriving DecidableEq, Repr

/-- A pattern that has been read. -/
structure Pattern where
  elements : List Element
deriving DecidableEq, Repr

/-- Why a text is no pattern. -/
inductive PatternFault where
  /-- Three or more stars in a row. -/
  | tooManyStars
  /-- `**` beside something other than a slash. -/
  | partsNotAlone
  /-- A set without a closing bracket. -/
  | openSet
deriving DecidableEq, Repr

/-- A fault and the character at which it was found. -/
structure PatternError where
  position : Nat
  fault : PatternFault
deriving DecidableEq, Repr

namespace PatternFault

def message : PatternFault → String
  | tooManyStars => "wildcards are either regular \x60*\x60 or recursive \x60**\x60"
  | partsNotAlone => "recursive wildcards must form a single path component"
  | openSet => "invalid range pattern"

end PatternFault

namespace PatternError

def message (error : PatternError) : String :=
  s!"Pattern syntax error near position {error.position}: {error.fault.message}"

end PatternError

/-- The members of a set, as written between its brackets. -/
def charRanges : List Char → List CharRange
  | first :: '-' :: last :: rest => .range first last :: charRanges rest
  | char :: rest => .single char :: charRanges rest
  | [] => []

/-- Read a set behind its opening bracket.  A bracket that stands first belongs
to the set, and an exclamation mark in front negates it. -/
def set? : List Char → Option (Element × List Char)
  | '!' :: first :: rest =>
    match rest.dropWhile (· ≠ ']') with
    | _ :: after => some (.outside (charRanges (first :: rest.takeWhile (· ≠ ']'))), after)
    | [] => none
  | ['!'] => none
  | first :: rest =>
    match rest.dropWhile (· ≠ ']') with
    | _ :: after => some (.within (charRanges (first :: rest.takeWhile (· ≠ ']'))), after)
    | [] => none
  | [] => none

/-- Read the elements of a pattern.  `previous` is the character before and
`position` the number of characters read; the fuel bounds the elements. -/
def elementsFrom (fuel position : Nat) (previous : Option Char) (elements : List Element)
    (chars : List Char) : Except PatternError (List Element) :=
  match fuel, chars with
  | 0, _ => .ok elements.reverse
  | _, [] => .ok elements.reverse
  | fuel + 1, '?' :: rest =>
    elementsFrom fuel (position + 1) (some '?') (.anyChar :: elements) rest
  | fuel + 1, '*' :: rest =>
    let stars := 1 + (rest.takeWhile (· = '*')).length
    let after := rest.dropWhile (· = '*')
    let next := position + stars
    if stars > 2 then
      .error ⟨position + 2, .tooManyStars⟩
    else if stars = 1 then
      elementsFrom fuel next (some '*') (.anySequence :: elements) after
    else if previous ≠ none && previous ≠ some '/' then
      .error ⟨position - 1, .partsNotAlone⟩
    else
      let collected :=
        if 1 < elements.length && elements.head? = some .anyParts then elements
        else .anyParts :: elements
      match after with
      | [] => .ok collected.reverse
      | '/' :: after => elementsFrom fuel (next + 1) (some '/') collected after
      | _ => .error ⟨next, .partsNotAlone⟩
  | fuel + 1, '[' :: rest =>
    match set? rest with
    | some (element, after) =>
      elementsFrom fuel (position + 1 + (rest.length - after.length)) (some ']')
        (element :: elements) after
    | none => .error ⟨position, .openSet⟩
  | fuel + 1, char :: rest =>
    elementsFrom fuel (position + 1) (some char) (.char char :: elements) rest

/-- Read a pattern. -/
def Pattern.parse (text : String) : Except PatternError Pattern :=
  (elementsFrom text.toList.length 0 none [] text.toList).map Pattern.mk

/-- Whether two characters are equal, ASCII letters in either case. -/
def sameChar (left right : Char) : Bool :=
  lowerAscii left == lowerAscii right

/-- Whether a member of a set holds a character.  A range between two letters of
ASCII holds letters in either case. -/
def CharRange.holds (char : Char) : CharRange → Bool
  | single other => sameChar char other
  | range first last =>
    (isAsciiLetter first && isAsciiLetter last && char.toNat < 128
      && lowerAscii first ≤ lowerAscii char && lowerAscii char ≤ lowerAscii last)
      || (first ≤ char && char ≤ last)

/-- Whether an element that stands for one character accepts it. -/
def Element.acceptsChar (char : Char) : Element → Bool
  | .char other => sameChar char other
  | .anyChar => char != '/'
  | .within set => char != '/' && set.any (·.holds char)
  | .outside set => char != '/' && !set.any (·.holds char)
  | .anySequence => false
  | .anyParts => false

/-- The outcome of matching: `exhausted` says that the path ended too early, so
that giving a wildcard more characters cannot help. -/
inductive Outcome where
  | matched
  | mismatch
  | exhausted
deriving DecidableEq, Repr

/-- Try what follows a wildcard behind ever more characters of the path.
`attempt` matches the rest of the pattern; `parts` tells `**` from `*`. -/
def afterWildcard (parts : Bool) (attempt : List Char → Outcome) : List Char → Outcome
  | [] => attempt []
  | char :: chars =>
    if parts && char != '/' then
      afterWildcard parts attempt chars
    else if !parts && char == '/' then
      .mismatch
    else
      match attempt chars with
      | .mismatch => afterWildcard parts attempt chars
      | outcome => outcome

/-- Match elements against the characters of a path. -/
def matchElements : List Element → List Char → Outcome
  | [], [] => .matched
  | [], _ :: _ => .mismatch
  | .anySequence :: rest, chars =>
    match matchElements rest chars with
    | .mismatch => afterWildcard false (matchElements rest) chars
    | outcome => outcome
  | .anyParts :: rest, chars =>
    match matchElements rest chars with
    | .mismatch => afterWildcard true (matchElements rest) chars
    | outcome => outcome
  | _ :: _, [] => .exhausted
  | element :: rest, char :: chars =>
    if element.acceptsChar char then matchElements rest chars else .mismatch

/-- Whether a path matches a pattern. -/
def Pattern.accepts (pattern : Pattern) (path : String) : Bool :=
  matchElements pattern.elements path.toList == .matched

end WikiPress.Glob
