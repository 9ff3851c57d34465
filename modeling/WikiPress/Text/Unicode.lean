import WikiPress.Text.WordRanges
import WikiPress.Text.PunctuationRanges
import WikiPress.Text.DigitRanges

/-!
# Classes of Unicode characters

The classes of characters that are not confined to ASCII: white space, word
characters, decimal digits and punctuation.  Each is a membership test in a
table of code point ranges.  `trim` removes white space at both ends of a text.
-/

namespace WikiPress.Text

/-- Whether a code point lies in one of the ranges. -/
def inRanges (ranges : List (Nat × Nat)) (char : Char) : Bool :=
  ranges.any fun (first, last) => first ≤ char.toNat && char.toNat ≤ last

/-- Ranges of the property `White_Space`. -/
def whiteSpaceRanges : List (Nat × Nat) :=
  [(9, 13), (32, 32), (133, 133), (160, 160), (5760, 5760), (8192, 8202),
    (8232, 8233), (8239, 8239), (8287, 8287), (12288, 12288)]

/-- White space of any script, line ends included. -/
def isWhiteSpace (char : Char) : Bool :=
  inRanges whiteSpaceRanges char

/-- Letters, marks, digits, connectors: what a keyword is made of. -/
def isWordChar (char : Char) : Bool :=
  inRanges wordRanges char

/-- Decimal digits of any script. -/
def isDecimalDigit (char : Char) : Bool :=
  inRanges digitRanges char

/-- Punctuation and symbols of any script. -/
def isPunctuation (char : Char) : Bool :=
  inRanges punctuationRanges char

/-- A list of characters without the white space at its start. -/
def trimStart (chars : List Char) : List Char :=
  chars.dropWhile isWhiteSpace

/-- A list of characters without the white space at its end. -/
def trimEnd (chars : List Char) : List Char :=
  (chars.reverse.dropWhile isWhiteSpace).reverse

/-- A text without the white space at its ends. -/
def trim (text : String) : String :=
  String.ofList (trimEnd (trimStart text.toList))

/-- The words between runs of white space. -/
def whiteSpaceWords (text : String) : List String :=
  (text.toList.splitBy fun left right => isWhiteSpace left == isWhiteSpace right).filterMap
    fun run => if run.all isWhiteSpace then none else some (String.ofList run)

end WikiPress.Text
