import WikiPress.Include.Expansion

/-!
# Fragments as they are written

A fragment is a sequence of parts: characters that are no braces, placeholders, and
invocations, whose arguments may hold placeholders in turn.  Written down, it is a text
in which the readers of calls find exactly these parts again.  Filling the placeholders
of the text is therefore filling those of the parts, and replacing the invocations of the
text is replacing those of the parts.
-/

namespace WikiPress.Include

open WikiPress.Text

/-! ## Parts -/

/-- What the arguments of an invocation in a fragment are made of. -/
inductive Slot where
  | char (value : Char)
  | place (place : Placeholder)
deriving DecidableEq, Repr

/-- What a fragment is made of. -/
inductive Part where
  | char (value : Char)
  | place (place : Placeholder)
  | call (name : List Char) (arguments : Option (List Slot))
deriving DecidableEq, Repr

/-- What stands behind the name of an invocation or the number of a placeholder. -/
def writeClosing : Option (List Char) → List Char
  | none => ['}', '}']
  | some text => '|' :: (text ++ ['}', '}'])

/-- A placeholder as it is written. -/
def Placeholder.write (place : Placeholder) : List Char :=
  '{' :: '{' :: '#' :: (place.number ++ writeClosing place.fallback)

namespace Slot

/-- A part of an argument as it is written. -/
def write : Slot → List Char
  | char value => [value]
  | place reference => reference.write

/-- What takes the place of a part of an argument. -/
def fill (arguments : List String) : Slot → List Slot
  | char value => [char value]
  | place reference => (reference.fill arguments).map char

end Slot

/-- Arguments as they are written. -/
def writeSlots (slots : List Slot) : List Char :=
  slots.flatMap Slot.write

namespace Part

/-- A part as it is written. -/
def write : Part → List Char
  | char value => [value]
  | place reference => reference.write
  | call name arguments => '{' :: '{' :: (name ++ writeClosing (arguments.map writeSlots))

/-- What takes the place of a part when a fragment is given its arguments. -/
def fill (arguments : List String) : Part → List Part
  | char value => [char value]
  | place reference => (reference.fill arguments).map char
  | call name slots => [call name (slots.map fun slots => slots.flatMap (Slot.fill arguments))]

end Part

/-- Parts as they are written. -/
def writeParts (parts : List Part) : List Char :=
  parts.flatMap Part.write

/-- A fragment that is given its arguments. -/
def fillParts (parts : List Part) (arguments : List String) : List Part :=
  parts.flatMap (Part.fill arguments)

/-! ## Well-braced parts -/

/-- Whether a placeholder has a number, and a default that may stand in it. -/
structure Placeholder.IsSound (place : Placeholder) : Prop where
  number_ne_nil : place.number ≠ []
  number_isDigit : ∀ char ∈ place.number, isDecimalDigit char = true
  fallback_isArgument : ∀ text ∈ place.fallback, ∀ char ∈ text, isArgumentChar char = true

/-- Whether characters are the name of a fragment. -/
structure IsName (name : List Char) : Prop where
  ne_nil : name ≠ []
  head_ne : name.head? ≠ some '#'
  isName : ∀ char ∈ name, isNameChar char = true

/-- Whether a part of an argument may stand there. -/
def Slot.IsSound : Slot → Prop
  | .char value => isArgumentChar value = true
  | .place reference => reference.IsSound

/-- Whether a part may stand in a fragment. -/
def Part.IsSound : Part → Prop
  | .char value => value ≠ '{' ∧ value ≠ '}'
  | .place reference => reference.IsSound
  | .call name arguments => IsName name ∧ ∀ slots ∈ arguments, ∀ slot ∈ slots, slot.IsSound

/-- Whether a part of an argument is a character. -/
def Slot.IsPlain : Slot → Prop
  | .char _ => True
  | .place _ => False

/-- Whether neither a part nor its arguments are placeholders. -/
def Part.IsPlain : Part → Prop
  | .char _ => True
  | .place _ => False
  | .call _ arguments => ∀ slots ∈ arguments, ∀ slot ∈ slots, slot.IsPlain

instance (place : Placeholder) : Decidable place.IsSound :=
  decidable_of_iff (place.number ≠ [] ∧ place.number.all isDecimalDigit = true ∧
      (place.fallback.getD []).all isArgumentChar = true) <| by
    obtain ⟨number, fallback⟩ := place
    constructor
    · rintro ⟨nonempty, isDigit, isArgument⟩
      refine ⟨nonempty, by simpa using isDigit, ?_⟩
      rintro text rfl
      simpa using isArgument
    · rintro ⟨nonempty, isDigit, isArgument⟩
      refine ⟨nonempty, by simpa using isDigit, ?_⟩
      cases fallback with
      | none => rfl
      | some text => simpa using isArgument text rfl

instance (name : List Char) : Decidable (IsName name) :=
  decidable_of_iff (name ≠ [] ∧ name.head? ≠ some '#' ∧ name.all isNameChar = true) <| by
    constructor
    · rintro ⟨nonempty, head, isName⟩
      exact ⟨nonempty, head, by simpa using isName⟩
    · rintro ⟨nonempty, head, isName⟩
      exact ⟨nonempty, head, by simpa using isName⟩

instance (slot : Slot) : Decidable slot.IsSound :=
  match slot with
  | .char value => inferInstanceAs (Decidable (isArgumentChar value = true))
  | .place reference => inferInstanceAs (Decidable reference.IsSound)

instance (part : Part) : Decidable part.IsSound :=
  match part with
  | .char value => inferInstanceAs (Decidable (value ≠ '{' ∧ value ≠ '}'))
  | .place reference => inferInstanceAs (Decidable reference.IsSound)
  | .call name arguments =>
    inferInstanceAs (Decidable (IsName name ∧ ∀ slots ∈ arguments, ∀ slot ∈ slots, slot.IsSound))

instance (slot : Slot) : Decidable slot.IsPlain :=
  match slot with
  | .char _ => .isTrue trivial
  | .place _ => .isFalse id

instance (part : Part) : Decidable part.IsPlain :=
  match part with
  | .char _ => .isTrue trivial
  | .place _ => .isFalse id
  | .call _ arguments =>
    inferInstanceAs (Decidable (∀ slots ∈ arguments, ∀ slot ∈ slots, slot.IsPlain))

/-- Parts of a fragment whose braces belong to its placeholders and invocations. -/
def IsWellBraced (parts : List Part) : Prop :=
  ∀ part ∈ parts, part.IsSound

/-- Parts of a text whose braces belong to its invocations. -/
def IsPlainCall (parts : List Part) : Prop :=
  ∀ part ∈ parts, part.IsSound ∧ part.IsPlain

instance (parts : List Part) : Decidable (IsWellBraced parts) :=
  inferInstanceAs (Decidable (∀ part ∈ parts, part.IsSound))

instance (parts : List Part) : Decidable (IsPlainCall parts) :=
  inferInstanceAs (Decidable (∀ part ∈ parts, part.IsSound ∧ part.IsPlain))

/-! ## Reading calls back -/

theorem closing?_writeClosing {text : Option (List Char)}
    (isArgument : ∀ chars ∈ text, ∀ char ∈ chars, isArgumentChar char = true)
    (rest : List Char) : closing? (writeClosing text ++ rest) = some (text, rest) := by
  cases text with
  | none => rfl
  | some chars =>
      have inside := isArgument chars rfl
      have tail : chars ++ ['}', '}'] ++ rest = chars ++ '}' :: '}' :: rest := by simp
      have dropped : (chars ++ ['}', '}'] ++ rest).dropWhile isArgumentChar =
          '}' :: '}' :: rest := by
        rw [tail, List.dropWhile_append_of_pos inside]
        rfl
      have taken : (chars ++ ['}', '}'] ++ rest).takeWhile isArgumentChar = chars := by
        rw [tail, List.takeWhile_append_of_pos inside]
        exact List.append_nil chars
      change closing? ('|' :: (chars ++ ['}', '}'] ++ rest)) = _
      unfold closing?
      simp only [dropped, taken]

/-- What stands behind a name or a number begins with neither. -/
theorem takeWhile_writeClosing (test : Char → Bool) (brace : test '}' = false)
    (pipe : test '|' = false) (text : Option (List Char)) (rest : List Char) :
    (writeClosing text ++ rest).takeWhile test = [] ∧
      (writeClosing text ++ rest).dropWhile test = writeClosing text ++ rest := by
  cases text with
  | none => exact ⟨by simp [writeClosing, brace], by simp [writeClosing, brace]⟩
  | some chars => exact ⟨by simp [writeClosing, pipe], by simp [writeClosing, pipe]⟩

/-- A call with a name or a number that ends at its closing. -/
theorem scan_writeClosing (test : Char → Bool) (brace : test '}' = false)
    (pipe : test '|' = false) {chars : List Char} (all : ∀ char ∈ chars, test char = true)
    (text : Option (List Char)) (rest : List Char) :
    (chars ++ (writeClosing text ++ rest)).takeWhile test = chars ∧
      (chars ++ (writeClosing text ++ rest)).dropWhile test = writeClosing text ++ rest := by
  obtain ⟨taken, dropped⟩ := takeWhile_writeClosing test brace pipe text rest
  rw [List.takeWhile_append_of_pos all, List.dropWhile_append_of_pos all, taken, dropped]
  exact ⟨List.append_nil chars, rfl⟩

theorem invocation?_write {name : List Char} (isName : IsName name) {text : Option (List Char)}
    (isArgument : ∀ chars ∈ text, ∀ char ∈ chars, isArgumentChar char = true)
    (rest : List Char) :
    invocation? ('{' :: '{' :: (name ++ (writeClosing text ++ rest))) =
      some (⟨name, text⟩, rest) := by
  obtain ⟨nonempty, noNumber, all⟩ := isName
  cases name with
  | nil => exact absurd rfl nonempty
  | cons first more =>
      obtain ⟨firstIsName, moreAreName⟩ := List.forall_mem_cons.mp all
      have notHash : first ≠ '#' := fun hash => noNumber (congrArg some hash)
      obtain ⟨taken, dropped⟩ :=
        scan_writeClosing isNameChar rfl rfl moreAreName text rest
      rw [List.cons_append]
      unfold invocation?
      have begins : (isNameChar first && first != '#') = true := by
        rw [firstIsName]
        simpa using notHash
      simp only [begins, if_true, taken, dropped, closing?_writeClosing isArgument]
      rfl

theorem placeholder?_write {place : Placeholder} (sound : place.IsSound) (rest : List Char) :
    placeholder? (place.write ++ rest) = some (place, rest) := by
  obtain ⟨number, fallback⟩ := place
  obtain ⟨nonempty, all, isArgument⟩ := sound
  cases number with
  | nil => exact absurd rfl nonempty
  | cons first more =>
      obtain ⟨firstIsDigit, moreAreDigits⟩ := List.forall_mem_cons.mp all
      obtain ⟨taken, dropped⟩ := scan_writeClosing isDecimalDigit (by decide) (by decide)
        moreAreDigits fallback rest
      have written : Placeholder.write ⟨first :: more, fallback⟩ ++ rest =
          '{' :: '{' :: '#' :: first :: (more ++ (writeClosing fallback ++ rest)) := by
        simp [Placeholder.write]
      rw [written]
      unfold placeholder?
      simp only [firstIsDigit, if_true, taken, dropped, closing?_writeClosing isArgument]
      rfl

/-! ## Reading what is no call -/

theorem invocation?_eq_none {char : Char} (other : char ≠ '{') (tail : List Char) :
    invocation? (char :: tail) = none := by
  unfold invocation?
  split
  · rename_i opening
    cases opening
    exact absurd rfl other
  · rfl

theorem placeholder?_eq_none {char : Char} (other : char ≠ '{') (tail : List Char) :
    placeholder? (char :: tail) = none := by
  unfold placeholder?
  split
  · rename_i opening
    cases opening
    exact absurd rfl other
  · rfl

/-- Two braces begin a placeholder only in front of a number sign. -/
theorem placeholder?_eq_none_of_name {first : Char} (notHash : first ≠ '#') (tail : List Char) :
    placeholder? ('{' :: '{' :: first :: tail) = none := by
  unfold placeholder?
  split
  · rename_i opening
    cases opening
    exact absurd rfl notHash
  · rfl

/-- One brace begins no placeholder. -/
theorem placeholder?_eq_none_of_brace {first : Char} (notBrace : first ≠ '{')
    (tail : List Char) : placeholder? ('{' :: first :: tail) = none := by
  unfold placeholder?
  split
  · rename_i opening
    cases opening
    exact absurd rfl notBrace
  · rfl

theorem ne_of_isArgumentChar {char : Char} (isArgument : isArgumentChar char = true) :
    char ≠ '{' ∧ char ≠ '}' := by
  unfold isArgumentChar at isArgument
  simp only [Bool.and_eq_true, bne_iff_ne] at isArgument
  exact ⟨isArgument.1.1, isArgument.1.2⟩

theorem ne_brace_of_isNameChar {char : Char} (isName : isNameChar char = true) : char ≠ '{' := by
  unfold isNameChar at isName
  simp only [Bool.and_eq_true, bne_iff_ne] at isName
  exact isName.1.1.1

/-! ## The invocations of a text -/

theorem invocationPieces_of_eq_some {char : Char} {tail rest : List Char} {call : Invocation}
    (found : invocation? (char :: tail) = some (call, rest)) :
    invocationPieces (char :: tail) =
      .call call (consumed (char :: tail) rest) :: invocationPieces rest := by
  rw [invocationPieces]
  split
  · rename_i other otherRest otherFound
    cases found.symm.trans otherFound
    rfl
  · rename_i missing
    cases found.symm.trans missing

theorem invocationPieces_of_eq_none {char : Char} {tail : List Char}
    (missing : invocation? (char :: tail) = none) :
    invocationPieces (char :: tail) = .char char :: invocationPieces tail := by
  rw [invocationPieces]
  split
  · rename_i found
    cases missing.symm.trans found
  · rfl

theorem isArgumentChar_writeSlots {slots : List Slot}
    (sound : ∀ slot ∈ slots, slot.IsSound) (plain : ∀ slot ∈ slots, slot.IsPlain) :
    ∀ char ∈ writeSlots slots, isArgumentChar char = true := by
  intro char member
  obtain ⟨slot, slotMember, written⟩ := List.mem_flatMap.mp member
  cases slot with
  | char value =>
      rw [List.mem_singleton.mp written]
      exact sound _ slotMember
  | place reference => exact absurd (plain _ slotMember) id

/-- The pieces that a part of a text is read as. -/
def Part.pieces : Part → List (Piece Invocation)
  | char value => [.char value]
  | place reference => reference.write.map .char
  | call name arguments =>
    [.call ⟨name, arguments.map writeSlots⟩ (call name arguments).write]

/-- The invocations of a text are those of its parts. -/
theorem invocationPieces_writeParts {parts : List Part} (plainCall : IsPlainCall parts) :
    invocationPieces (writeParts parts) = parts.flatMap Part.pieces := by
  induction parts with
  | nil =>
      rw [writeParts, List.flatMap_nil, invocationPieces]
      rfl
  | cons part parts ih =>
      obtain ⟨⟨sound, plain⟩, rest⟩ := List.forall_mem_cons.mp plainCall
      rw [writeParts, List.flatMap_cons, List.flatMap_cons, ← ih rest]
      change invocationPieces (part.write ++ writeParts parts) = _
      cases part with
      | place reference => exact absurd plain id
      | char value =>
          have none := invocation?_eq_none sound.1 (writeParts parts)
          exact invocationPieces_of_eq_none none
      | call name arguments =>
          obtain ⟨isName, slotsSound⟩ := sound
          have isArgument : ∀ chars ∈ arguments.map writeSlots, ∀ char ∈ chars,
              isArgumentChar char = true := by
            intro chars member
            obtain ⟨slots, slotsMember, rfl⟩ := Option.map_eq_some_iff.mp member
            exact isArgumentChar_writeSlots (slotsSound slots slotsMember)
              (plain slots slotsMember)
          have found := invocation?_write isName isArgument (writeParts parts)
          have written : (Part.call name arguments).write ++ writeParts parts =
              '{' :: '{' :: (name ++ (writeClosing (arguments.map writeSlots) ++
                writeParts parts)) := by
            simp [Part.write]
          have consumedEq : consumed ((Part.call name arguments).write ++ writeParts parts)
              (writeParts parts) = (Part.call name arguments).write := by
            simp [consumed]
          rw [written] at consumedEq ⊢
          rw [invocationPieces_of_eq_some found, consumedEq]
          rfl

/-! ## Filling a written fragment -/

/-- Characters with the placeholders in them filled. -/
def fillChars (arguments : List String) (chars : List Char) : List Char :=
  Piece.render (fun place _ => place.fill arguments) (placeholderPieces chars)

section Filling

variable {arguments : List String}

theorem fillChars_cons {char : Char} {tail : List Char}
    (missing : placeholder? (char :: tail) = none) :
    fillChars arguments (char :: tail) = char :: fillChars arguments tail := by
  unfold fillChars
  rw [placeholderPieces]
  split
  · rename_i found
    cases missing.symm.trans found
  · rfl

theorem fillChars_append {chars : List Char} (noBrace : ∀ char ∈ chars, char ≠ '{')
    (rest : List Char) :
    fillChars arguments (chars ++ rest) = chars ++ fillChars arguments rest := by
  induction chars with
  | nil => rfl
  | cons char chars ih =>
      obtain ⟨other, others⟩ := List.forall_mem_cons.mp noBrace
      rw [List.cons_append, fillChars_cons (placeholder?_eq_none other _), ih others]
      rfl

theorem fillChars_place {place : Placeholder} (sound : place.IsSound) (rest : List Char) :
    fillChars arguments (place.write ++ rest) =
      place.fill arguments ++ fillChars arguments rest := by
  have found := placeholder?_write sound rest
  unfold fillChars
  change Piece.render _ (placeholderPieces ('{' :: (_ ++ rest))) = _
  change placeholder? ('{' :: (_ ++ rest)) = _ at found
  rw [placeholderPieces]
  split
  · rename_i other otherFound
    cases found.symm.trans otherFound
    rfl
  · rename_i missing
    cases found.symm.trans missing

@[simp]
theorem writeSlots_map_char (chars : List Char) : writeSlots (chars.map Slot.char) = chars := by
  induction chars with
  | nil => rfl
  | cons char chars ih => exact congrArg (char :: ·) ih

@[simp]
theorem writeParts_map_char (chars : List Char) : writeParts (chars.map Part.char) = chars := by
  induction chars with
  | nil => rfl
  | cons char chars ih => exact congrArg (char :: ·) ih

theorem fillChars_writeSlots {slots : List Slot} (sound : ∀ slot ∈ slots, slot.IsSound)
    (rest : List Char) :
    fillChars arguments (writeSlots slots ++ rest) =
      writeSlots (slots.flatMap (Slot.fill arguments)) ++ fillChars arguments rest := by
  induction slots with
  | nil => rfl
  | cons slot slots ih =>
      obtain ⟨slotSound, behind⟩ := List.forall_mem_cons.mp sound
      have first : fillChars arguments (slot.write ++ (writeSlots slots ++ rest)) =
          writeSlots (slot.fill arguments) ++ fillChars arguments (writeSlots slots ++ rest) := by
        cases slot with
        | char value =>
            exact fillChars_cons (placeholder?_eq_none (ne_of_isArgumentChar slotSound).1 _)
        | place reference =>
            rw [Slot.fill, writeSlots_map_char]
            exact fillChars_place slotSound _
      unfold writeSlots at first ih ⊢
      rw [List.flatMap_cons, List.flatMap_cons, List.append_assoc, first, ih behind,
        List.flatMap_append, List.append_assoc]

theorem fillChars_writeClosing {slots : Option (List Slot)}
    (sound : ∀ inner ∈ slots, ∀ slot ∈ inner, slot.IsSound) (rest : List Char) :
    fillChars arguments (writeClosing (slots.map writeSlots) ++ rest) =
      writeClosing ((slots.map fun inner => inner.flatMap (Slot.fill arguments)).map writeSlots)
        ++ fillChars arguments rest := by
  have closing : ∀ char ∈ ['}', '}'], char ≠ '{' := by simp
  cases slots with
  | none => exact fillChars_append closing rest
  | some inner =>
      have pipe : '|' ≠ '{' := by decide
      have tail : writeClosing (some (writeSlots inner)) ++ rest =
          '|' :: (writeSlots inner ++ (['}', '}'] ++ rest)) := by
        simp [writeClosing]
      change fillChars arguments (writeClosing (some (writeSlots inner)) ++ rest) = _
      rw [tail, fillChars_cons (placeholder?_eq_none pipe _),
        fillChars_writeSlots (sound inner rfl), fillChars_append closing]
      simp [writeClosing]

/-- Filling the placeholders of a text is filling those of its parts. -/
theorem fillChars_writeParts {parts : List Part} (wellBraced : IsWellBraced parts) :
    fillChars arguments (writeParts parts) = writeParts (fillParts parts arguments) := by
  induction parts with
  | nil =>
      unfold fillChars
      rw [writeParts, List.flatMap_nil, placeholderPieces]
      rfl
  | cons part parts ih =>
      obtain ⟨sound, behind⟩ := List.forall_mem_cons.mp wellBraced
      have first : fillChars arguments (part.write ++ writeParts parts) =
          writeParts (part.fill arguments) ++ fillChars arguments (writeParts parts) := by
        cases part with
        | char value => exact fillChars_cons (placeholder?_eq_none sound.1 _)
        | place reference =>
            rw [Part.fill, writeParts_map_char]
            exact fillChars_place sound _
        | call name slots =>
            obtain ⟨⟨nonempty, noNumber, isName⟩, slotsSound⟩ := sound
            have noBrace : ∀ char ∈ name, char ≠ '{' :=
              fun char member => ne_brace_of_isNameChar (isName char member)
            have openings (tail : List Char) :
                fillChars arguments ('{' :: '{' :: (name ++ tail)) =
                  '{' :: '{' :: (name ++ fillChars arguments tail) := by
              rw [← fillChars_append noBrace]
              cases name with
              | nil => exact absurd rfl nonempty
              | cons initial more =>
                  have notHash : initial ≠ '#' := fun hash => noNumber (congrArg some hash)
                  have notBrace := noBrace initial List.mem_cons_self
                  rw [List.cons_append, fillChars_cons (placeholder?_eq_none_of_name notHash _),
                    fillChars_cons (placeholder?_eq_none_of_brace notBrace _)]
            have written : (Part.call name slots).write ++ writeParts parts =
                '{' :: '{' :: (name ++ (writeClosing (slots.map writeSlots) ++
                  writeParts parts)) := by
              simp [Part.write]
            rw [written, openings, fillChars_writeClosing slotsSound]
            simp [writeParts, Part.fill, Part.write]
      change fillChars arguments (part.write ++ writeParts parts) = _
      rw [first, ih behind]
      simp [writeParts, fillParts, List.flatMap_append]

end Filling

/-- The text of a fragment. -/
def textOf (parts : List Part) : String :=
  String.ofList (writeParts parts)

theorem fillPlaceholders_textOf {parts : List Part} (wellBraced : IsWellBraced parts)
    (arguments : List String) :
    fillPlaceholders (textOf parts) arguments = textOf (fillParts parts arguments) := by
  unfold fillPlaceholders textOf
  rw [String.toList_ofList]
  exact congrArg String.ofList (fillChars_writeParts wellBraced)

end WikiPress.Include
