import Mathlib.Data.String.Basic
import WikiPress.Text.Position

/-!
# Offsets that split a text

An offset is a boundary when the text splits there.  What is read at an offset is then
the head of what stands behind it, and a slice between two boundaries is what stands
between them.  An ASCII byte is never part of a longer character, so it always stands
between two boundaries.
-/

namespace WikiPress.Text

/-- The characters of a text before an offset and behind it. -/
structure SplitsAt (text : String) (offset : Nat) (before behind : List Char) : Prop where
  toList_eq : text.toList = before ++ behind
  byteLength_eq : byteLength before = offset

theorem byteLength_eq_utf8Len (chars : List Char) : byteLength chars = String.utf8Len chars := by
  induction chars with
  | nil => rfl
  | cons char chars ih => rw [byteLength_cons, String.utf8Len_cons, ih, Nat.add_comm]

@[simp]
theorem byteLength_toList (text : String) : byteLength text.toList = text.utf8ByteSize := by
  rw [byteLength_eq_utf8Len, String.utf8Len_toList]

theorem byteLength_replicate (count : Nat) {char : Char} (one : char.utf8Size = 1) :
    byteLength (List.replicate count char) = count := by
  induction count with
  | zero => rfl
  | succ count ih => rw [List.replicate_succ, byteLength_cons, ih, one, Nat.add_comm]

/-! ## Boundaries -/

theorem isBoundary_iff {text : String} {offset : Nat} :
    isBoundary text offset = true ↔ ∃ before behind, SplitsAt text offset before behind := by
  unfold isBoundary
  rw [String.Pos.Raw.isValid_eq_true_iff, String.Pos.Raw.isValid_iff_exists_append]
  constructor
  · rintro ⟨before, behind, textEq, offsetEq⟩
    refine ⟨before.toList, behind.toList, ?_, ?_⟩
    · rw [textEq, String.toList_append]
    · rw [byteLength_toList]
      exact (congrArg String.Pos.Raw.byteIdx offsetEq).symm
  · rintro ⟨before, behind, textEq, offsetEq⟩
    refine ⟨String.ofList before, String.ofList behind, ?_, ?_⟩
    · rw [← String.ofList_append, ← textEq, String.ofList_toList]
    · apply String.Pos.Raw.ext
      change offset = (String.ofList before).utf8ByteSize
      rw [← offsetEq, ← byteLength_toList, String.toList_ofList]

theorem SplitsAt.isBoundary {text : String} {offset : Nat} {before behind : List Char}
    (splits : SplitsAt text offset before behind) : isBoundary text offset = true :=
  isBoundary_iff.mpr ⟨before, behind, splits⟩

/-- Behind more characters, a text splits again. -/
theorem SplitsAt.advance {text : String} {offset : Nat} {before middle behind : List Char}
    (splits : SplitsAt text offset before (middle ++ behind)) :
    SplitsAt text (offset + byteLength middle) (before ++ middle) behind := by
  constructor
  · rw [splits.toList_eq, List.append_assoc]
  · rw [byteLength_append, splits.byteLength_eq]

/-- Behind its first character, a rest splits again. -/
theorem SplitsAt.next {text : String} {offset : Nat} {before behind : List Char} {char : Char}
    (splits : SplitsAt text offset before (char :: behind)) :
    SplitsAt text (offset + char.utf8Size) (before ++ [char]) behind := by
  have advanced : SplitsAt text (offset + byteLength [char]) (before ++ [char]) behind :=
    SplitsAt.advance splits
  rwa [byteLength_cons, byteLength_nil] at advanced

/-- Behind an ASCII character, a text splits one byte later. -/
theorem SplitsAt.succ {text : String} {offset : Nat} {before behind : List Char} {char : Char}
    (splits : SplitsAt text offset before (char :: behind)) (one : char.utf8Size = 1) :
    SplitsAt text (offset + 1) (before ++ [char]) behind := by
  rw [← one]
  exact splits.next

theorem le_utf8ByteSize_of_isBoundary {text : String} {offset : Nat}
    (boundary : isBoundary text offset = true) : offset ≤ text.utf8ByteSize := by
  obtain ⟨before, behind, splits⟩ := isBoundary_iff.mp boundary
  rw [← byteLength_toList, splits.toList_eq, byteLength_append, splits.byteLength_eq]
  exact Nat.le_add_right _ _

/-- Of two boundaries in order, the text splits at the first one in such a way that the
characters up to the second one come next. -/
theorem SplitsAt.exists_middle {text : String} {start stop : Nat} {before behind : List Char}
    (splits : SplitsAt text start before behind) (boundary : Text.isBoundary text stop = true)
    (inOrder : start ≤ stop) :
    ∃ middle rest, behind = middle ++ rest ∧ start + byteLength middle = stop := by
  obtain ⟨left, right, stopSplits⟩ := isBoundary_iff.mp boundary
  have same : before ++ behind = left ++ right := splits.toList_eq.symm.trans stopSplits.toList_eq
  rcases List.append_eq_append_iff.mp same with ⟨middle, leftEq, behindEq⟩ | ⟨extra, beforeEq, _⟩
  · refine ⟨middle, right, behindEq, ?_⟩
    rw [← splits.byteLength_eq, ← stopSplits.byteLength_eq, leftEq, byteLength_append]
  · have lengths : byteLength before = byteLength left + byteLength extra := by
      rw [beforeEq, byteLength_append]
    have stopEq : start = stop := by
      rw [splits.byteLength_eq, stopSplits.byteLength_eq] at lengths
      omega
    exact ⟨[], behind, rfl, stopEq⟩

/-! ## What is read -/

theorem SplitsAt.charAt?_eq {text : String} {offset : Nat} {before behind : List Char}
    (splits : SplitsAt text offset before behind) : charAt? text offset = behind.head? := by
  unfold charAt?
  rw [if_pos splits.isBoundary, ← String.ofList_toList (s := text), splits.toList_eq,
    ← splits.byteLength_eq, byteLength_eq_utf8Len]
  exact String.get?_of_valid before behind

theorem SplitsAt.slice_eq {text : String} {offset : Nat} {before middle behind : List Char}
    (splits : SplitsAt text offset before (middle ++ behind)) :
    slice text offset (offset + byteLength middle) = String.ofList middle := by
  unfold slice
  rw [← String.ofList_toList (s := text), splits.toList_eq, ← splits.byteLength_eq,
    byteLength_eq_utf8Len, byteLength_eq_utf8Len, ← List.append_assoc]
  exact String.extract_of_valid before middle behind

theorem slice_self {text : String} {offset : Nat} (boundary : isBoundary text offset = true) :
    slice text offset offset = "" := by
  obtain ⟨before, behind, splits⟩ := isBoundary_iff.mp boundary
  have nothing : SplitsAt text offset before ([] ++ behind) := splits
  exact nothing.slice_eq

theorem slice?_eq_some {text : String} {start stop : Nat}
    (atStart : isBoundary text start = true) (atStop : isBoundary text stop = true)
    (inOrder : start ≤ stop) : slice? text start stop = some (slice text start stop) := by
  simp [slice?, atStart, atStop, inOrder]

/-- At a boundary that is not the end, a character is read, and no boundary lies between
it and the next one. -/
theorem exists_charAt? {text : String} {offset : Nat} (boundary : isBoundary text offset = true)
    (inside : offset < text.utf8ByteSize) :
    ∃ char, charAt? text offset = some char ∧
      isBoundary text (offset + char.utf8Size) = true ∧
      ∀ next, isBoundary text next = true → offset < next → offset + char.utf8Size ≤ next := by
  obtain ⟨before, behind, splits⟩ := isBoundary_iff.mp boundary
  cases behind with
  | nil =>
      rw [← byteLength_toList, splits.toList_eq, List.append_nil, splits.byteLength_eq] at inside
      exact absurd inside (Nat.lt_irrefl offset)
  | cons char behind =>
      refine ⟨char, splits.charAt?_eq, ?_, ?_⟩
      · exact splits.next.isBoundary
      · intro next nextBoundary later
        obtain ⟨middle, rest, behindEq, nextEq⟩ :=
          splits.exists_middle nextBoundary (Nat.le_of_lt later)
        cases middle with
        | nil =>
            rw [byteLength_nil, Nat.add_zero] at nextEq
            exact absurd later (nextEq ▸ Nat.lt_irrefl offset)
        | cons first middle =>
            obtain ⟨rfl, _⟩ := List.cons.inj behindEq
            rw [← nextEq, byteLength_cons]
            omega

/-- A character that is read does not reach beyond the next boundary. -/
theorem stop_le_of_charAt? {text : String} {offset stop : Nat} {char : Char}
    (boundary : isBoundary text stop = true) (before : offset < stop)
    (found : charAt? text offset = some char) : offset + char.utf8Size ≤ stop := by
  have start : isBoundary text offset = true := by
    by_contra noBoundary
    rw [charAt?, if_neg noBoundary] at found
    cases found
  have inText := le_utf8ByteSize_of_isBoundary boundary
  obtain ⟨read, readEq, _, next⟩ := exists_charAt? start (by omega)
  obtain rfl : read = char := Option.some.inj (readEq.symm.trans found)
  exact next stop boundary before

/-- A character that is read is a slice of the text. -/
theorem slice_of_charAt? {text : String} {offset : Nat} {char : Char}
    (boundary : isBoundary text offset = true) (found : charAt? text offset = some char) :
    slice text offset (offset + char.utf8Size) = char.toString := by
  obtain ⟨before, behind, splits⟩ := isBoundary_iff.mp boundary
  rw [splits.charAt?_eq] at found
  obtain ⟨rest, rfl⟩ := List.head?_eq_some_iff.mp found
  have alone : SplitsAt text offset before ([char] ++ rest) := splits
  exact alone.slice_eq

/-! ## ASCII bytes -/

theorem of_mem_utf8EncodeChar {char : Char} {byte : UInt8}
    (member : byte ∈ String.utf8EncodeChar char) (ascii : byte.toNat < 128) :
    char.toNat = byte.toNat ∧ char.utf8Size = 1 := by
  unfold String.utf8EncodeChar at member
  simp only at member
  split at member
  · rename_i small
    have byteEq : byte.toNat = char.val.toNat := by
      rw [List.mem_singleton.mp member, UInt8.toNat_ofNat']
      omega
    exact ⟨byteEq.symm, Char.utf8Size_eq_one_iff.mpr small⟩
  · -- every byte of a longer character has its highest bit set
    exfalso
    split at member
    · simp only [List.mem_cons, List.not_mem_nil, or_false] at member
      rcases member with rfl | rfl <;> rw [UInt8.toNat_ofNat'] at ascii <;> omega
    · split at member
      · simp only [List.mem_cons, List.not_mem_nil, or_false] at member
        rcases member with rfl | rfl | rfl <;> rw [UInt8.toNat_ofNat'] at ascii <;> omega
      · simp only [List.mem_cons, List.not_mem_nil, or_false] at member
        rcases member with rfl | rfl | rfl | rfl <;> rw [UInt8.toNat_ofNat'] at ascii <;> omega

/-- An ASCII byte in the encoding of characters is a character of its own. -/
theorem exists_ascii_char {chars : List Char} {index : Nat} {byte : UInt8}
    (found : (chars.flatMap String.utf8EncodeChar)[index]? = some byte)
    (ascii : byte.toNat < 128) :
    ∃ before char behind, chars = before ++ char :: behind ∧ byteLength before = index ∧
      char.toNat = byte.toNat ∧ char.utf8Size = 1 := by
  induction chars generalizing index with
  | nil =>
      rw [List.flatMap_nil, List.getElem?_nil] at found
      cases found
  | cons first chars ih =>
      rw [List.flatMap_cons] at found
      have size := String.length_utf8EncodeChar first
      by_cases inside : index < first.utf8Size
      · rw [List.getElem?_append_left (by rw [size]; exact inside)] at found
        obtain ⟨same, one⟩ := of_mem_utf8EncodeChar (List.mem_of_getElem? found) ascii
        refine ⟨[], first, chars, rfl, ?_, same, one⟩
        rw [one] at inside
        rw [byteLength_nil]
        omega
      · rw [List.getElem?_append_right (by rw [size]; omega), size] at found
        obtain ⟨before, char, behind, charsEq, lengthEq, same, one⟩ := ih found
        refine ⟨first :: before, char, behind, ?_, ?_, same, one⟩
        · rw [charsEq, List.cons_append]
        · rw [byteLength_cons, lengthEq]
          omega

/-- The bytes of a text are those of its characters, one behind the other. -/
theorem byteAt?_eq (text : String) (offset : Nat) :
    byteAt? text offset = ((text.toList.flatMap String.utf8EncodeChar)[offset]?).map
      fun byte => Char.ofNat byte.toNat := by
  have encoded : text.toByteArray.data.toList = text.toList.flatMap String.utf8EncodeChar := by
    rw [← String.utf8Encode_toList, List.utf8Encode]
    simp
  rw [← encoded]
  unfold byteAt?
  split
  · rename_i inside
    have found : text.toByteArray.data.toList[offset]? =
        some (text.getUTF8Byte ⟨offset⟩ inside) := List.getElem?_eq_getElem _
    rw [found]
    rfl
  · rename_i outside
    have beyond : text.toByteArray.data.toList[offset]? = none :=
      List.getElem?_eq_none (Nat.le_of_not_lt outside)
    rw [beyond]
    rfl

@[simp]
theorem toNat_ofNat_byte (byte : UInt8) : (Char.ofNat byte.toNat).toNat = byte.toNat := by
  have valid : byte.toNat.isValidChar := Or.inl (Nat.lt_trans byte.toNat_lt (by decide))
  unfold Char.ofNat
  rw [dif_pos valid]
  rfl

/-- Where the byte of an ASCII character is read, the text splits before this
character. -/
theorem exists_splitsAt_of_byteAt? {text : String} {offset : Nat} {char : Char}
    (found : byteAt? text offset = some char) (ascii : char.toNat < 128) :
    ∃ before behind, SplitsAt text offset before (char :: behind) ∧ char.utf8Size = 1 := by
  rw [byteAt?_eq] at found
  obtain ⟨byte, byteFound, rfl⟩ := Option.map_eq_some_iff.mp found
  rw [toNat_ofNat_byte] at ascii
  obtain ⟨before, read, behind, textEq, lengthEq, same, one⟩ := exists_ascii_char byteFound ascii
  have readEq : read = Char.ofNat byte.toNat :=
    Char.toNat_inj.mp (same.trans (toNat_ofNat_byte byte).symm)
  rw [← readEq]
  exact ⟨before, behind, ⟨textEq, lengthEq⟩, one⟩

/-- Where the text splits before an ASCII character, its byte is read. -/
theorem SplitsAt.byteAt?_eq {text : String} {offset : Nat} {before behind : List Char}
    {char : Char} (splits : SplitsAt text offset before (char :: behind))
    (ascii : char.toNat < 128) : byteAt? text offset = some char := by
  have small : char.val.toNat ≤ 127 := Nat.le_of_lt_succ ascii
  have encoded : String.utf8EncodeChar char = [char.val.toUInt8] := by
    unfold String.utf8EncodeChar
    simp only
    rw [if_pos small]
    rfl
  have length : (before.flatMap String.utf8EncodeChar).length = offset := by
    rw [← splits.byteLength_eq]
    clear splits
    induction before with
    | nil => rfl
    | cons first before ih =>
        rw [List.flatMap_cons, List.length_append, String.length_utf8EncodeChar, ih,
          byteLength_cons]
  rw [Text.byteAt?_eq, splits.toList_eq, List.flatMap_append, List.flatMap_cons, encoded,
    List.getElem?_append_right (Nat.le_of_eq length), length, Nat.sub_self]
  change some (Char.ofNat char.val.toUInt8.toNat) = some char
  have same : char.val.toUInt8.toNat = char.toNat := by
    rw [UInt32.toNat_toUInt8]
    exact Nat.mod_eq_of_lt (Nat.lt_trans ascii (by decide))
  rw [same, Char.ofNat_toNat]

/-- The byte of an ASCII character is read where the text goes on with it. -/
theorem SplitsAt.byteAt?_eq_some_iff {text : String} {offset : Nat} {before behind : List Char}
    (splits : SplitsAt text offset before behind) {char : Char} (ascii : char.toNat < 128) :
    byteAt? text offset = some char ↔ behind.head? = some char := by
  constructor
  · intro found
    obtain ⟨_, _, charSplits, _⟩ := exists_splitsAt_of_byteAt? found ascii
    rw [← splits.charAt?_eq, charSplits.charAt?_eq]
    rfl
  · intro head
    obtain ⟨rest, rfl⟩ := List.head?_eq_some_iff.mp head
    exact splits.byteAt?_eq ascii

/-- Where the text splits before copies of an ASCII character, its byte is read at each. -/
theorem SplitsAt.byteAt?_replicate {text : String} {start count : Nat} {before behind : List Char}
    {char : Char} (splits : SplitsAt text start before (List.replicate count char ++ behind))
    (ascii : char.toNat < 128) {offset : Nat} (startLe : start ≤ offset)
    (inside : offset < start + count) : byteAt? text offset = some char := by
  have one : char.utf8Size = 1 := Char.utf8Size_eq_one_iff.mpr (Nat.le_of_lt_succ ascii)
  obtain ⟨passed, rfl⟩ := Nat.exists_eq_add_of_le startLe
  have countEq : count = passed + ((count - passed - 1) + 1) := by omega
  rw [countEq, List.replicate_add, List.append_assoc] at splits
  have reached := splits.advance
  rw [byteLength_replicate passed one] at reached
  exact reached.byteAt?_eq ascii

/-- Every byte of characters is one of them, unless it is no ASCII character. -/
theorem SplitsAt.exists_byteAt? {text : String} {start offset : Nat}
    {before middle behind : List Char} (splits : SplitsAt text start before (middle ++ behind))
    (startLe : start ≤ offset) (inside : offset < start + byteLength middle) :
    ∃ char, byteAt? text offset = some char ∧ (char ∈ middle ∨ 128 ≤ char.toNat) := by
  have inText : offset < text.utf8ByteSize := by
    have stop := le_utf8ByteSize_of_isBoundary splits.advance.isBoundary
    omega
  obtain ⟨char, found⟩ : ∃ char, byteAt? text offset = some char := by
    unfold byteAt?
    rw [dif_pos inText]
    exact ⟨_, rfl⟩
  refine ⟨char, found, ?_⟩
  by_cases ascii : char.toNat < 128
  · left
    obtain ⟨left, right, charSplits, one⟩ := exists_splitsAt_of_byteAt? found ascii
    obtain ⟨skipped, rest, middleEq, offsetEq⟩ :=
      splits.exists_middle charSplits.isBoundary startLe
    -- what stands behind the skipped characters begins with the byte that was read
    have restSplits : SplitsAt text (start + byteLength skipped) (before ++ skipped) rest := by
      rw [middleEq] at splits
      exact splits.advance
    have head : rest.head? = some char := by
      rw [← restSplits.charAt?_eq, offsetEq, charSplits.charAt?_eq]
      rfl
    obtain ⟨rest, rfl⟩ := List.head?_eq_some_iff.mp head
    rcases List.append_eq_append_iff.mp middleEq with
      ⟨extra, skippedEq, _⟩ | ⟨inner, middleEq, _⟩
    · rw [skippedEq, byteLength_append] at offsetEq
      omega
    · cases inner with
      | nil =>
          rw [middleEq, List.append_nil] at inside
          omega
      | cons first inner =>
          rename_i restEq
          obtain ⟨rfl, _⟩ := List.cons.inj restEq
          rw [middleEq]
          simp
  · exact .inr (Nat.le_of_not_lt ascii)

/-- Where the byte of an ASCII character is read that is not among some characters, these have
been passed. -/
theorem SplitsAt.le_of_byteAt? {text : String} {start offset : Nat}
    {before middle behind : List Char} (splits : SplitsAt text start before (middle ++ behind))
    {char : Char} (other : char ∉ middle) (startLe : start ≤ offset)
    (found : byteAt? text offset = some char) (ascii : char.toNat < 128) :
    start + byteLength middle ≤ offset := by
  by_contra inMiddle
  obtain ⟨read, readFound, isChar⟩ := splits.exists_byteAt? startLe (Nat.lt_of_not_le inMiddle)
  cases found.symm.trans readFound
  rcases isChar with same | notAscii
  · exact other same
  · exact absurd ascii (Nat.not_lt.mpr notAscii)

/-- No byte of a character is the byte of another one that is in ASCII. -/
theorem SplitsAt.byteAt?_ne {text : String} {start offset : Nat} {before behind : List Char}
    {char ascii : Char} (splits : SplitsAt text start before (char :: behind))
    (isAscii : ascii.toNat < 128) (other : char ≠ ascii) (startLe : start ≤ offset)
    (inside : offset < start + char.utf8Size) : byteAt? text offset ≠ some ascii := by
  intro found
  have alone : SplitsAt text start before ([char] ++ behind) := splits
  have passed := alone.le_of_byteAt? (by simpa using other.symm) startLe found isAscii
  rw [byteLength_cons, byteLength_nil] at passed
  exact Nat.not_lt.mpr passed inside

end WikiPress.Text
