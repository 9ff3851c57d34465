import Mathlib.Data.List.Infix
import WikiPress.Proofs.Text.Splitting
import WikiPress.Template

/-!
# Filling a template

A template is filled by one replacement after the other, and each of them goes through what the
ones before it have written.  As long as no literal text and no value but the body can take part
in a marker, this is the same as filling all markers at once: a replacement copies such a text
and comes to the next marker, and the body is written last.
-/

namespace WikiPress.Template

open Text

/-! ## Templates -/

/-- What the markers of a template stand for. -/
inductive Field where
  | prefixedTitle
  | title
  | generateDate
  | body
deriving DecidableEq, Repr

namespace Field

def name : Field → String
  | prefixedTitle => "prefixedtitle"
  | title => "title"
  | generateDate => "generatedate"
  | body => "body"

theorem name_injective : Function.Injective name := by
  intro field other
  cases field <;> cases other <;> decide

/-- A field as it is written in a template. -/
def mark (field : Field) : String :=
  marker field.name

/-- The text that a field is filled with. -/
def value (titleText bodyText : String) (generatedAt : Moment) : Field → String
  | prefixedTitle => " - " ++ titleText
  | title => titleText
  | generateDate => generatedAt.format
  | body => bodyText

end Field

/-- A text that has no part in a marker, whatever stands around it. -/
structure Literal where
  text : String
  noOpening : ¬ ['{', '{'] <:+: text.toList
  notLast : text.toList.getLast? ≠ some '{'

/-- A text without opening braces has no part in a marker. -/
def Literal.ofNoBrace (text : String) (noBrace : '{' ∉ text.toList) : Literal where
  text
  noOpening inside := noBrace (inside.subset List.mem_cons_self)
  notLast isLast := noBrace (List.mem_of_getLast? isLast)

/-- A part of a template. -/
inductive Piece where
  | literal (content : Literal)
  | mark (field : Field)

namespace Piece

/-- A part as it is written. -/
def text : Piece → String
  | literal content => content.text
  | mark field => field.mark

/-- A part with its field filled. -/
def filled (value : Field → String) : Piece → String
  | literal content => content.text
  | mark field => value field

/-- A part with one field filled, and the others left. -/
def put (filledField : Field) (value : String) : Piece → String
  | literal content => content.text
  | mark field => if field = filledField then value else field.mark

/-- A part with one field made literal text. -/
def settle (settled : Field) (content : Literal) : Piece → Piece
  | literal own => literal own
  | mark field => if field = settled then literal content else mark field

theorem put_text (settled : Field) (content : Literal) (piece : Piece) :
    piece.put settled content.text = (piece.settle settled content).text := by
  cases piece with
  | literal own => rfl
  | mark field => exact (apply_ite text (field = settled) (literal content) (mark field)).symm

end Piece

/-! ## One replacement -/

variable {field other : Field} {pattern : List Char}

@[simp]
theorem after?_append (pattern rest : List Char) :
    after? pattern (pattern ++ rest) = some rest := by
  induction pattern with
  | nil => exact after?_nil rest
  | cons char pattern ih => simpa [after?] using ih

theorem eq_append_of_after? {chars rest : List Char} (found : after? pattern chars = some rest) :
    chars = pattern ++ rest := by
  induction pattern generalizing chars with
  | nil => simpa using found
  | cons expected pattern ih =>
      cases chars with
      | nil => cases found
      | cons char chars =>
          unfold after? at found
          split at found
          · rename_i same
            rw [same, ih found, List.cons_append]
          · cases found

/-- What stands behind the first brace of a mark. -/
def Field.tail (field : Field) : List Char :=
  '{' :: (field.name.toList ++ ['}', '}'])

@[simp]
theorem Field.toList_mark (field : Field) : field.mark.toList = '{' :: field.tail := by
  unfold mark marker tail
  simp

theorem Field.closing_not_mem_name (field : Field) : '}' ∉ field.name.toList := by
  cases field <;> decide

/-- A mark is not taken for that of another field. -/
theorem Field.after?_tail_of_ne (different : other ≠ field) (rest : List Char) :
    after? field.tail (other.tail ++ rest) = none := by
  rw [Option.eq_none_iff_forall_ne_some]
  intro behind found
  have same := eq_append_of_after? found
  simp only [tail, List.cons_append, List.append_assoc] at same
  have inName (field : Field) : ∀ char ∈ field.name.toList, (char != '}') = true :=
    fun char member => bne_iff_ne.mpr fun same => field.closing_not_mem_name (same ▸ member)
  have ends (rest : List Char) :
      ∀ char ∈ ('}' :: ('}' :: rest)).head?, (char != '}') = false := by
    rintro char ⟨⟩
    rfl
  have names := (append_inj_of_run (inName other) (inName field) (ends rest) (ends behind)
    (List.cons.inj same).2).1
  exact different (name_injective (String.toList_inj.mp names))

/-- A replacement copies a text in which no two braces stand, and which does not end with
one, and goes on behind it. -/
theorem replaceChars_calm_append {chars : List Char} (noOpening : ¬ ['{', '{'] <:+: chars)
    (notLast : chars.getLast? ≠ some '{') (pattern value rest : List Char) :
    replaceChars '{' ('{' :: pattern) value (chars ++ rest) =
      chars ++ replaceChars '{' ('{' :: pattern) value rest := by
  induction chars with
  | nil => rfl
  | cons char chars ih =>
      have laterCalm : ¬ ['{', '{'] <:+: chars := fun later => noOpening (List.infix_cons later)
      have laterLast : chars.getLast? ≠ some '{' := by
        intro isLast
        apply notLast
        rw [List.getLast?_cons, isLast]
        rfl
      have copied := ih laterCalm laterLast
      rw [List.cons_append, replaceChars]
      split
      · rename_i isBrace
        have missing : after? ('{' :: pattern) (chars ++ rest) = none := by
          cases chars with
          | nil => exact absurd (congrArg some isBrace) notLast
          | cons next chars =>
              apply if_neg
              rintro rfl
              exact noOpening ⟨[], chars, by rw [isBrace]; rfl⟩
        split
        · rename_i found
          cases missing.symm.trans found
        · rw [copied, List.cons_append]
      · rw [copied, List.cons_append]

theorem replaceChars_mark_append (field : Field) (value rest : List Char) :
    replaceChars '{' field.tail value (field.mark.toList ++ rest) =
      value ++ replaceChars '{' field.tail value rest := by
  rw [field.toList_mark, List.cons_append, replaceChars, if_pos rfl]
  split
  · rename_i behind found
    cases (after?_append _ _).symm.trans found
    rfl
  · rename_i missing
    cases (after?_append _ _).symm.trans missing

theorem replaceChars_mark_append_of_ne (different : other ≠ field) (value rest : List Char) :
    replaceChars '{' field.tail value (other.mark.toList ++ rest) =
      other.mark.toList ++ replaceChars '{' field.tail value rest := by
  have noOpening : ¬ ['{', '{'] <:+: other.tail := by
    cases other <;> decide
  have notLast : other.tail.getLast? ≠ some '{' := by
    cases other <;> decide
  have copied := replaceChars_calm_append noOpening notLast
    (field.name.toList ++ ['}', '}']) value rest
  rw [other.toList_mark, List.cons_append, replaceChars, if_pos rfl]
  split
  · rename_i found
    cases (Field.after?_tail_of_ne different rest).symm.trans found
  · exact congrArg ('{' :: ·) copied

/-- A replacement goes through a template piece by piece. -/
theorem replaceChars_piece_append (field : Field) (value : String) (piece : Piece)
    (rest : List Char) :
    replaceChars '{' field.tail value.toList (piece.text.toList ++ rest) =
      (piece.put field value).toList ++ replaceChars '{' field.tail value.toList rest := by
  cases piece with
  | literal content => exact replaceChars_calm_append content.noOpening content.notLast _ _ _
  | mark own =>
      by_cases same : own = field
      · rw [Piece.put, if_pos same, same]
        exact replaceChars_mark_append field _ rest
      · rw [Piece.put, if_neg same]
        exact replaceChars_mark_append_of_ne same _ rest

theorem replace_pieces (field : Field) (value : String) (pieces : List Piece) :
    Text.replace field.mark value (String.join (pieces.map Piece.text)) =
      String.join (pieces.map (Piece.put field value)) := by
  have stepwise : replaceChars '{' field.tail value.toList
      ((pieces.map Piece.text).flatMap String.toList) =
        (pieces.map (Piece.put field value)).flatMap String.toList := by
    induction pieces with
    | nil => rw [List.map_nil, List.flatMap_nil, replaceChars]; rfl
    | cons piece pieces ih =>
        rw [List.map_cons, List.flatMap_cons, replaceChars_piece_append, ih]
        rfl
  unfold Text.replace
  rw [field.toList_mark]
  apply String.toList_inj.mp
  rw [String.toList_ofList, String.toList_join, String.toList_join, stepwise]

/-- A field that is filled with literal text is gone, and the text is again a template. -/
theorem replace_literal (field : Field) (content : Literal) (pieces : List Piece) :
    Text.replace field.mark content.text (String.join (pieces.map Piece.text)) =
      String.join ((pieces.map (Piece.settle field content)).map Piece.text) := by
  rw [replace_pieces, List.map_map]
  congr 2
  exact funext fun piece => piece.put_text field content

/-! ## Dates -/

theorem noBrace_padded (width value : Nat) : '{' ∉ (Calendar.padded width value).toList := by
  unfold Calendar.padded
  rw [String.toList_append, String.toList_ofList, Nat.toString_eq_ofList_toDigits,
    String.toList_ofList, List.mem_append]
  rintro (isZero | isDigit)
  · cases List.eq_of_mem_replicate isZero
  · cases Nat.isDigit_of_mem_toDigits (by decide) (by decide) isDigit

theorem noBrace_yearText (year : Int) : '{' ∉ (Calendar.yearText year).toList := by
  unfold Calendar.yearText
  split
  · simpa using noBrace_padded 4 year.natAbs
  · split
    · simpa using noBrace_padded 4 year.natAbs
    · exact noBrace_padded 4 year.natAbs

theorem noBrace_getD {names : List String} (noBrace : ∀ name ∈ names, '{' ∉ name.toList)
    (index : Nat) : '{' ∉ (names[index]?.getD "").toList := by
  cases found : names[index]? with
  | none => exact List.not_mem_nil
  | some name => exact noBrace name (List.mem_of_getElem? found)

/-- A date is written without braces. -/
theorem noBrace_format (moment : Moment) : '{' ∉ moment.format.toList := by
  have weekday : ∀ index, '{' ∉ (Calendar.weekdayNames[index]?.getD "").toList :=
    noBrace_getD (by decide)
  have month : ∀ index, '{' ∉ (Calendar.monthNames[index]?.getD "").toList :=
    noBrace_getD (by decide)
  have written (text : String) : toString text = text := rfl
  simp [Moment.format, written, noBrace_padded, noBrace_yearText, weekday, month]

/-! ## All replacements -/

/-- A template is filled in one go: each mark becomes the value of its field, and nothing else
changes, also where a value or the body looks like a mark. -/
theorem fill_pieces (pieces : List Piece) {title : String} (noBrace : '{' ∉ title.toList)
    (body : String) (generatedAt : Moment) :
    fill (String.join (pieces.map Piece.text)) title body generatedAt =
      String.join (pieces.map (Piece.filled (Field.value title body generatedAt))) := by
  let content := Literal.ofNoBrace title noBrace
  let prefixed := Literal.ofNoBrace (" - " ++ title) (by simpa using noBrace)
  let date := Literal.ofNoBrace generatedAt.format (noBrace_format generatedAt)
  calc
    _ = Text.replace Field.body.mark body (Text.replace Field.generateDate.mark date.text
          (Text.replace Field.title.mark content.text
            (Text.replace Field.prefixedTitle.mark prefixed.text
              (String.join (pieces.map Piece.text))))) := rfl
    _ = _ := by
      rw [replace_literal, replace_literal, replace_literal, replace_pieces]
      simp only [List.map_map]
      congr 2
      funext piece
      cases piece with
      | literal own => rfl
      | mark field => cases field <;> rfl

end WikiPress.Template
