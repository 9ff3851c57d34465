import WikiPress.Proofs.Html.Escaping
import WikiPress.Proofs.Text.Splitting

/-!
# Tags

The tags of a text are read from left to right.  A `<` starts a tag that goes up to the next
`>`: perhaps a slash, a name, and attributes with their values in quotes.  `Writes chars tags`
says the same of a text from the side of its writer, where texts may be put together: apart
from the tags there is no `<` and no `>` in it.
-/

namespace WikiPress.Html

open Text

/-- A tag as it is read, with the values of its attributes unescaped. -/
structure Tag where
  name : String
  isClosing : Bool := false
  attributes : List (String × String) := []
deriving DecidableEq, Repr

/-! ## Reading -/

/-- Whether a character may stand in the name of a tag or of an attribute. -/
def isNameChar (char : Char) : Bool :=
  !(char.isWhitespace || ['"', '\'', '&', '<', '>', '=', '/'].contains char)

/-- A plain word, as the names of tags and of attributes are. -/
structure IsWord (name : String) : Prop where
  ne_empty : name ≠ ""
  chars : ∀ char ∈ name.toList, isNameChar char = true

instance (name : String) : Decidable (IsWord name) :=
  decidable_of_iff (name ≠ "" ∧ name.toList.all isNameChar = true)
    ⟨fun ⟨nonempty, chars⟩ => ⟨nonempty, List.all_eq_true.mp chars⟩,
      fun ⟨nonempty, chars⟩ => ⟨nonempty, List.all_eq_true.mpr chars⟩⟩

/-- Read a value, which stands in quotes behind an equals sign; what follows it is left. -/
def readValue? : List Char → Option (String × List Char)
  | '=' :: '"' :: chars =>
    match chars.dropWhile (· ≠ '"') with
    | _ :: rest => some (String.ofList (unescape (chars.takeWhile (· ≠ '"'))), rest)
    | [] => none
  | _ => none

theorem length_lt_of_readValue? {chars rest : List Char} {value : String}
    (read : readValue? chars = some (value, rest)) : rest.length < chars.length := by
  unfold readValue? at read
  split at read
  · rename_i chars
    have shorter := (List.dropWhile_sublist (· ≠ '"') (l := chars)).length_le
    split at read
    · rename_i ended
      cases read
      rw [ended] at shorter
      simp only [List.length_cons] at shorter ⊢
      omega
    · cases read
  · cases read

/-- Read attributes, each one behind a space. -/
def readAttributes : List Char → Option (List (String × String))
  | [] => some []
  | char :: chars =>
    let name := String.ofList (chars.takeWhile isNameChar)
    if char = ' ' ∧ name ≠ "" then
      match _valued : readValue? (chars.dropWhile isNameChar) with
      | some (value, rest) => (readAttributes rest).map ((name, value) :: ·)
      | none => none
    else none
termination_by chars => chars.length
decreasing_by
  have shorter := (List.dropWhile_sublist isNameChar (l := chars)).length_le
  have behind := length_lt_of_readValue? _valued
  simp only [List.length_cons]
  omega

/-- Read the name of a tag and its attributes. -/
def readNamed (isClosing : Bool) (chars : List Char) : Option Tag :=
  let name := String.ofList (chars.takeWhile isNameChar)
  if name ≠ "" then
    (readAttributes (chars.dropWhile isNameChar)).map ({ name, isClosing, attributes := · })
  else none

/-- Read what stands between the marks of a tag. -/
def readTag : List Char → Option Tag
  | '/' :: chars => readNamed true chars
  | chars => readNamed false chars

/-- Read the tags of a text.  A `>` that ends no tag is refused. -/
def readTags : List Char → Option (List Tag)
  | [] => some []
  | char :: chars =>
    if char = '<' then
      match _ended : chars.dropWhile (· ≠ '>') with
      | _ :: rest =>
        (readTag (chars.takeWhile (· ≠ '>'))).bind fun tag => (readTags rest).map (tag :: ·)
      | [] => none
    else if char = '>' then none
    else readTags chars
termination_by chars => chars.length
decreasing_by
  · have shorter := (List.dropWhile_sublist (· ≠ '>') (l := chars)).length_le
    rw [_ended] at shorter
    simp only [List.length_cons] at shorter ⊢
    omega
  · simp

/-! ## Writing -/

/-- Attributes as they are written, each one behind a space. -/
def attributeChars (attributes : List (String × String)) : List Char :=
  attributes.flatMap fun (name, value) =>
    ' ' :: (name.toList ++ '=' :: '"' :: ((escape value).toList ++ ['"']))

namespace Tag

/-- What is written between the marks of a tag. -/
def inner (tag : Tag) : List Char :=
  (if tag.isClosing then ['/'] else []) ++ (tag.name.toList ++ attributeChars tag.attributes)

/-- A tag as it is written. -/
def chars (tag : Tag) : List Char :=
  '<' :: (tag.inner ++ ['>'])

/-- A tag whose names are plain words. -/
structure IsPlain (tag : Tag) : Prop where
  name : IsWord tag.name
  names : ∀ pair ∈ tag.attributes, IsWord pair.1

end Tag

variable {name value : String} {attributes : List (String × String)} {tag : Tag}

theorem IsWord.not_mem (word : IsWord name) (char : Char) (noName : isNameChar char = false) :
    char ∉ name.toList := by
  intro member
  rw [word.chars char member] at noName
  cases noName

theorem readValue?_cons (value : String) (rest : List Char) :
    readValue? ('=' :: '"' :: ((escape value).toList ++ '"' :: rest)) = some (value, rest) := by
  have escaped : ∀ char ∈ (escape value).toList, decide (char ≠ '"') = true := by
    intro char member
    exact decide_eq_true fun same => (not_mem_escape value).2.2 (same ▸ member)
  have quote : ∀ char ∈ ('"' :: rest).head?, decide (char ≠ '"') = false := by
    rintro _ ⟨⟩
    rfl
  rw [readValue?, dropWhile_append_of_ends escaped quote, takeWhile_append_of_ends escaped quote,
    unescape_escape, String.ofList_toList]

theorem readAttributes_cons (word : IsWord name) (value : String) (rest : List Char) :
    readAttributes (' ' :: (name.toList ++ '=' :: '"' :: ((escape value).toList ++ '"' :: rest))) =
      (readAttributes rest).map ((name, value) :: ·) := by
  have equals (behind : List Char) : ∀ char ∈ ('=' :: behind).head?, isNameChar char = false := by
    rintro _ ⟨⟩
    rfl
  rw [readAttributes, takeWhile_append_of_ends word.chars (equals _),
    dropWhile_append_of_ends word.chars (equals _), readValue?_cons, String.ofList_toList]
  exact if_pos ⟨rfl, word.ne_empty⟩

theorem readAttributes_attributeChars (words : ∀ pair ∈ attributes, IsWord pair.1) :
    readAttributes (attributeChars attributes) = some attributes := by
  induction attributes with
  | nil => rw [attributeChars, List.flatMap_nil, readAttributes]
  | cons pair attributes ih =>
      obtain ⟨word, words⟩ := List.forall_mem_cons.mp words
      have written : attributeChars (pair :: attributes) =
          ' ' :: (pair.1.toList ++ '=' :: '"' ::
            ((escape pair.2).toList ++ '"' :: attributeChars attributes)) := by
        simp [attributeChars]
      rw [written, readAttributes_cons word, ih words]
      rfl

/-- What is written for attributes stands in no name. -/
theorem ends_attributeChars (attributes : List (String × String)) :
    ∀ char ∈ (attributeChars attributes).head?, isNameChar char = false := by
  cases attributes with
  | nil => nofun
  | cons pair attributes =>
      rintro _ ⟨⟩
      rfl

theorem readNamed_append (isClosing : Bool) (word : IsWord name)
    (words : ∀ pair ∈ attributes, IsWord pair.1) :
    readNamed isClosing (name.toList ++ attributeChars attributes) =
      some { name, isClosing, attributes } := by
  have ends := ends_attributeChars attributes
  unfold readNamed
  rw [takeWhile_append_of_ends word.chars ends, dropWhile_append_of_ends word.chars ends,
    readAttributes_attributeChars words, String.ofList_toList]
  exact if_pos word.ne_empty

/-- A tag is read back as it was written. -/
theorem Tag.IsPlain.readTag_inner (plain : tag.IsPlain) : readTag tag.inner = some tag := by
  obtain ⟨name, isClosing, attributes⟩ := tag
  obtain ⟨word, words⟩ := plain
  have read := readNamed_append isClosing word words
  unfold inner readTag
  cases isClosing with
  | true => exact read
  | false =>
      split
      · -- A slash in front would be the first character of the name.
        rename_i behind slash
        rw [if_neg Bool.false_ne_true, List.nil_append] at slash
        have first : name.toList.head? = some '/' := by
          obtain ⟨char, chars, nameEq⟩ := List.exists_cons_of_ne_nil
            (mt String.toList_eq_nil_iff.mp word.ne_empty)
          rw [nameEq] at slash ⊢
          exact congrArg some (List.cons.inj slash).1
        exact absurd (List.mem_of_head? first) (word.not_mem '/' rfl)
      · exact read

theorem not_mem_attributeChars (words : ∀ pair ∈ attributes, IsWord pair.1) {char : Char}
    (noName : isNameChar char = false) (noSeparator : char ∉ [' ', '=', '"'])
    (escaped : ∀ value, char ∉ (escape value).toList) : char ∉ attributeChars attributes := by
  unfold attributeChars
  simp only [List.mem_flatMap, not_exists, not_and]
  intro pair member inside
  have inName := (words pair member).not_mem char noName
  have inValue := escaped pair.2
  simp_all

/-- A tag that is written has no marks inside. -/
theorem Tag.IsPlain.not_mem_inner (plain : tag.IsPlain) : '<' ∉ tag.inner ∧ '>' ∉ tag.inner := by
  have inName := And.intro (plain.name.not_mem '<' rfl) (plain.name.not_mem '>' rfl)
  have inAttributes := And.intro
    (not_mem_attributeChars plain.names rfl (by decide) fun value => (not_mem_escape value).1)
    (not_mem_attributeChars plain.names rfl (by decide) fun value => (not_mem_escape value).2.1)
  unfold inner
  cases tag.isClosing <;> simp [inAttributes, inName]

/-! ## Texts with tags -/

/-- The tags that a text is written with. -/
inductive Writes : List Char → List Tag → Prop where
  | nil : Writes [] []
  | char {char : Char} {chars : List Char} {tags : List Tag} (noOpening : char ≠ '<')
      (noClosing : char ≠ '>') (behind : Writes chars tags) : Writes (char :: chars) tags
  | tag {inner chars : List Char} {tag : Tag} {tags : List Tag} (read : readTag inner = some tag)
      (noOpening : '<' ∉ inner) (noClosing : '>' ∉ inner) (behind : Writes chars tags) :
      Writes ('<' :: (inner ++ '>' :: chars)) (tag :: tags)

namespace Writes

variable {chars others : List Char} {tags more : List Tag}

/-- Texts are put together. -/
theorem append (writes : Writes chars tags) (behind : Writes others more) :
    Writes (chars ++ others) (tags ++ more) := by
  induction writes with
  | nil => exact behind
  | char noOpening noClosing _ ih => exact .char noOpening noClosing ih
  | tag read noOpening noClosing _ ih =>
      rw [List.cons_append, List.append_assoc]
      exact .tag read noOpening noClosing ih

theorem of_plain (noOpening : '<' ∉ chars) (noClosing : '>' ∉ chars) : Writes chars [] := by
  induction chars with
  | nil => exact .nil
  | cons char chars ih =>
      rw [List.mem_cons, not_or] at noOpening noClosing
      exact .char (Ne.symm noOpening.1) (Ne.symm noClosing.1) (ih noOpening.2 noClosing.2)

/-- Escaped text has no tags. -/
theorem escape (text : String) : Writes (escape text).toList [] :=
  of_plain (not_mem_escape text).1 (not_mem_escape text).2.1

theorem of_isPlain (plain : tag.IsPlain) : Writes tag.chars [tag] :=
  .tag plain.readTag_inner plain.not_mem_inner.1 plain.not_mem_inner.2 .nil

/-- The tags are read back, in order. -/
theorem readTags_eq (writes : Writes chars tags) : readTags chars = some tags := by
  induction writes with
  | nil => rw [readTags]
  | char noOpening noClosing _ ih => rw [readTags, if_neg noOpening, if_neg noClosing, ih]
  | @tag inner chars tag tags read _ noClosing _ ih =>
      have inside : ∀ char ∈ inner, decide (char ≠ '>') = true := by
        intro char member
        exact decide_eq_true fun same => noClosing (same ▸ member)
      have ends : ∀ char ∈ ('>' :: chars).head?, decide (char ≠ '>') = false := by
        rintro _ ⟨⟩
        rfl
      rw [readTags, if_pos rfl, dropWhile_append_of_ends inside ends,
        takeWhile_append_of_ends inside ends, read]
      exact congrArg (Option.map (tag :: ·)) ih

/-- A `<` that is not in front of a `>` stands behind it. -/
theorem exists_behind {inner before behind : List Char} (noOpening : '<' ∉ inner)
    (same : before ++ '<' :: behind = inner ++ '>' :: chars) :
    ∃ between, before = inner ++ '>' :: between ∧ between ++ '<' :: behind = chars := by
  rcases List.append_eq_append_iff.mp same with ⟨more, rfl, opening⟩ | ⟨more, rfl, closing⟩
  · cases more with
    | nil => cases opening
    | cons char more =>
        obtain ⟨rfl, _⟩ := List.cons.inj opening
        simp at noOpening
  · cases more with
    | nil => cases closing
    | cons char more =>
        obtain ⟨rfl, rest⟩ := List.cons.inj closing
        exact ⟨more, rfl, rest.symm⟩

/-- Every `<` starts a tag, which goes up to the next `>`. -/
theorem exists_tag {before behind : List Char} (writes : Writes (before ++ '<' :: behind) tags) :
    ∃ earlier tag later inner rest, tags = earlier ++ tag :: later ∧ Writes before earlier ∧
      behind = inner ++ '>' :: rest ∧ '>' ∉ inner ∧ readTag inner = some tag ∧
        Writes rest later := by
  generalize whole : before ++ '<' :: behind = chars at writes
  induction writes generalizing before with
  | nil => simp at whole
  | @char char chars tags noOpening noClosing writes ih =>
      cases before with
      | nil => exact absurd (List.cons.inj whole).1.symm noOpening
      | cons first before =>
          obtain ⟨rfl, rest⟩ := List.cons.inj whole
          obtain ⟨earlier, found, later, inner, after, tagsEq, front, others⟩ := ih rest
          exact ⟨earlier, found, later, inner, after, tagsEq, .char noOpening noClosing front,
            others⟩
  | @tag inner chars tag tags read noOpening noClosing writes ih =>
      cases before with
      | nil =>
          exact ⟨[], tag, tags, inner, chars, rfl, .nil, (List.cons.inj whole).2, noClosing, read,
            writes⟩
      | cons first before =>
          obtain ⟨rfl, rest⟩ := List.cons.inj whole
          -- The `<` stands behind this tag, since there is none inside.
          obtain ⟨between, rfl, behindTag⟩ := exists_behind noOpening rest
          obtain ⟨earlier, found, later, inside, after, rfl, front, others⟩ := ih behindTag
          exact ⟨tag :: earlier, found, later, inside, after, rfl,
            .tag read noOpening noClosing front, others⟩

end Writes

end WikiPress.Html
