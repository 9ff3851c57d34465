/-!
# Byte offsets into a text

Every position the library reports is a byte offset in the UTF-8 encoding of a
text.  This file supplies the few reads that later modules make at such an
offset: the character that starts there, the single byte that lies there, and
the slice between two offsets.  A read outside the text, or of a character at an
offset that falls inside one, has no answer; no read ever fails.
-/

namespace WikiPress

/-- A half-open range of byte offsets. -/
structure Span where
  start : Nat
  stop : Nat
deriving DecidableEq, Repr, Inhabited

namespace Text

/-- Whether `offset` is the start of a character of `text`, or its end. -/
def isBoundary (text : String) (offset : Nat) : Bool :=
  (String.Pos.Raw.mk offset).isValid text

/-- The character that starts at `offset`, if there is one. -/
def charAt? (text : String) (offset : Nat) : Option Char :=
  if isBoundary text offset then (String.Pos.Raw.mk offset).get? text else none

/-- The byte at `offset`, written as the character with that number.  Bytes of
ASCII characters are those characters; all other bytes come out as characters
from `U+0080` to `U+00FF`, which no ASCII test accepts. -/
def byteAt? (text : String) (offset : Nat) : Option Char :=
  if inside : offset < text.utf8ByteSize then
    some (Char.ofNat (text.getUTF8Byte ⟨offset⟩ inside).toNat)
  else
    none

/-- The text between two offsets; empty when they are out of order. -/
def slice (text : String) (start stop : Nat) : String :=
  (String.Pos.Raw.mk start).extract text ⟨stop⟩

/-- The text between two offsets, provided that they are in order and that both
are boundaries of characters. -/
def slice? (text : String) (start stop : Nat) : Option String :=
  if start ≤ stop && isBoundary text start && isBoundary text stop then
    some (slice text start stop)
  else
    none

/-- Number of bytes that a list of characters takes. -/
def byteLength : List Char → Nat
  | [] => 0
  | char :: chars => char.utf8Size + byteLength chars

@[simp]
theorem byteLength_nil : byteLength [] = 0 :=
  rfl

@[simp]
theorem byteLength_cons (char : Char) (chars : List Char) :
    byteLength (char :: chars) = char.utf8Size + byteLength chars :=
  rfl

@[simp]
theorem byteLength_append (left right : List Char) :
    byteLength (left ++ right) = byteLength left + byteLength right := by
  induction left with
  | nil => simp
  | cons char chars ih => simp [ih, Nat.add_assoc]

end Text

end WikiPress
