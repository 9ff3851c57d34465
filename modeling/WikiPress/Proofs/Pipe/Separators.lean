import WikiPress.Proofs.Pipe
import WikiPress.Proofs.Text.Offset

/-!
# Where a text is cut

A pipe separates if the number of backslashes directly before it is even.  The splitter
walks once over the characters and only remembers whether the last ones were an odd
number of backslashes; what it cuts at are the separating pipes, all of them or as many of
the first ones as the limit allows.
-/

namespace WikiPress.Pipe

open Text

/-! ## Separators -/

/-- How many backslashes stand directly before an offset. -/
def backslashesBefore (text : String) : Nat → Nat
  | 0 => 0
  | offset + 1 => if byteAt? text offset = some '\\' then backslashesBefore text offset + 1 else 0

/-- Whether a separating pipe lies at an offset. -/
def IsSeparator (text : String) (offset : Nat) : Prop :=
  byteAt? text offset = some '|' ∧ backslashesBefore text offset % 2 = 0

instance (text : String) : DecidablePred (IsSeparator text) :=
  fun offset => inferInstanceAs (Decidable
    (byteAt? text offset = some '|' ∧ backslashesBefore text offset % 2 = 0))

/-- The offsets of the separating pipes from an offset on, in order. -/
def separatorsFrom (text : String) (start : Nat) : List Nat :=
  (List.range' start (text.utf8ByteSize - start)).filter (IsSeparator text)

/-- The offsets of the separating pipes of a text, in order. -/
def separators (text : String) : List Nat :=
  separatorsFrom text 0

/-- As many of the first entries of a list as there may be. -/
def firstOf {α : Type} (count : Option Nat) (entries : List α) : List α :=
  match count with
  | none => entries
  | some count => entries.take count

/-- The ranges between cuts that take one byte each. -/
def between (start stop : Nat) : List Nat → List Span
  | [] => [⟨start, stop⟩]
  | cut :: cuts => ⟨start, cut⟩ :: between (cut + 1) stop cuts

/-- The first segments of a list, and what the others are when they are joined. -/
def joinBehind {α : Type} (join : List α → α) (count : Nat) (segments : List α) : List α :=
  if segments.length ≤ count then segments
  else segments.take count ++ [join (segments.drop count)]

variable {text : String}

theorem firstOf_length {α : Type} (count : Option Nat) (entries : List α) :
    (firstOf count entries).length = match count with
      | none => entries.length
      | some count => min count entries.length := by
  cases count with
  | none => rfl
  | some count => exact List.length_take

theorem firstOf_cons {α : Type} {count : Option Nat} (more : count ≠ some 0) (entry : α)
    (entries : List α) :
    firstOf count (entry :: entries) = entry :: firstOf (count.map (· - 1)) entries := by
  cases count with
  | none => rfl
  | some count =>
      cases count with
      | zero => exact absurd rfl more
      | succ count => rfl

@[simp]
theorem length_between (start stop : Nat) (cuts : List Nat) :
    (between start stop cuts).length = cuts.length + 1 := by
  induction cuts generalizing start with
  | nil => rfl
  | cons cut cuts ih => rw [between, List.length_cons, ih, List.length_cons]

/-- A separator is the first one from its own offset on. -/
theorem separatorsFrom_eq_cons {offset : Nat} (isSeparator : IsSeparator text offset) :
    separatorsFrom text offset = offset :: separatorsFrom text (offset + 1) := by
  have inside : offset < text.utf8ByteSize := by
    have found := isSeparator.1
    unfold byteAt? at found
    split at found
    · assumption
    · cases found
  have left : text.utf8ByteSize - offset = text.utf8ByteSize - (offset + 1) + 1 := by omega
  unfold separatorsFrom
  rw [left, List.range'_succ, List.filter_cons_of_pos (by simpa using isSeparator)]

/-- A stretch without separators may be passed over. -/
theorem separatorsFrom_eq_of_none {start next : Nat} (startLe : start ≤ next)
    (nextLe : next ≤ text.utf8ByteSize)
    (none : ∀ offset, start ≤ offset → offset < next → ¬ IsSeparator text offset) :
    separatorsFrom text start = separatorsFrom text next := by
  have stretch : List.range' start (text.utf8ByteSize - start) =
      List.range' start (next - start) ++ List.range' next (text.utf8ByteSize - next) := by
    have lengths : text.utf8ByteSize - start = (next - start) + (text.utf8ByteSize - next) := by
      omega
    have nextEq : next = start + 1 * (next - start) := by omega
    rw [lengths, ← List.range'_append, ← nextEq]
  have passed : (List.range' start (next - start)).filter (IsSeparator text) = [] := by
    rw [List.filter_eq_nil_iff]
    intro offset member
    rw [List.mem_range'_1] at member
    simpa using none offset member.1 (by omega)
  unfold separatorsFrom
  rw [stretch, List.filter_append, passed, List.nil_append]

/-! ## What the splitter remembers -/

section Walk

variable {offset : Nat} {before behind : List Char}

theorem backslashesBefore_succ (splits : SplitsAt text offset before ('\\' :: behind)) :
    backslashesBefore text (offset + 1) = backslashesBefore text offset + 1 := by
  rw [backslashesBefore, if_pos (splits.byteAt?_eq (by decide))]

/-- Behind any other character stand no backslashes. -/
theorem backslashesBefore_eq_zero {char : Char}
    (splits : SplitsAt text offset before (char :: behind)) (other : char ≠ '\\') :
    backslashesBefore text (offset + char.utf8Size) = 0 := by
  obtain ⟨last, sizeEq⟩ := Nat.exists_eq_add_of_lt char.utf8Size_pos
  have lastEq : offset + char.utf8Size = offset + last + 1 := by omega
  rw [lastEq, backslashesBefore, if_neg]
  exact splits.byteAt?_ne (by decide) other (by omega) (by omega)

/-- Whether what the splitter remembers at an offset is that an odd number of backslashes
stands before it. -/
def Remembers (text : String) (offset : Nat) (escaping : Bool) : Prop :=
  escaping = decide (backslashesBefore text offset % 2 = 1)

theorem Remembers.behind_backslash {escaping : Bool} (remembers : Remembers text offset escaping)
    (splits : SplitsAt text offset before ('\\' :: behind)) :
    Remembers text (offset + '\\'.utf8Size) (!escaping) := by
  have one : '\\'.utf8Size = 1 := by decide
  unfold Remembers at remembers ⊢
  rw [one, backslashesBefore_succ splits, remembers, Bool.eq_iff_iff]
  simp only [Bool.not_eq_true', decide_eq_false_iff_not, decide_eq_true_eq]
  omega

theorem remembers_behind_other {char : Char}
    (splits : SplitsAt text offset before (char :: behind)) (other : char ≠ '\\') :
    Remembers text (offset + char.utf8Size) false := by
  unfold Remembers
  rw [backslashesBefore_eq_zero splits other]
  rfl

/-- A pipe separates exactly if the splitter does not remember an odd number of
backslashes. -/
theorem isSeparator_iff {char : Char} (splits : SplitsAt text offset before (char :: behind))
    {escaping : Bool} (remembers : Remembers text offset escaping) :
    IsSeparator text offset ↔ char = '|' ∧ escaping = false := by
  have isPipe : byteAt? text offset = some '|' ↔ char = '|' := by
    constructor
    · intro found
      by_contra other
      exact splits.byteAt?_ne (by decide) other (Nat.le_refl offset)
        (Nat.lt_add_of_pos_right char.utf8Size_pos) found
    · rintro rfl
      exact splits.byteAt?_eq (by decide)
  unfold IsSeparator
  rw [isPipe, remembers, decide_eq_false_iff_not]
  constructor
  · rintro ⟨isPipe, even⟩
    exact ⟨isPipe, by omega⟩
  · rintro ⟨isPipe, notOdd⟩
    exact ⟨isPipe, by omega⟩

/-- The separators are those behind a character, unless it is one itself. -/
theorem separatorsFrom_eq_of_not_isSeparator {char : Char}
    (splits : SplitsAt text offset before (char :: behind)) (other : ¬ IsSeparator text offset) :
    separatorsFrom text offset = separatorsFrom text (offset + char.utf8Size) := by
  have nextLe := le_utf8ByteSize_of_isBoundary splits.next.isBoundary
  refine separatorsFrom_eq_of_none (Nat.le_add_right _ _) nextLe ?_
  intro inner startLe inside isSeparator
  by_cases isPipe : char = '|'
  · subst char
    have one : '|'.utf8Size = 1 := by decide
    have same : inner = offset := by omega
    exact other (same ▸ isSeparator)
  · exact splits.byteAt?_ne (by decide) isPipe startLe inside isSeparator.1

/-- A character that is put in front of the first segment moves the start of its range. -/
theorem rangesFrom_consFirst {char : Char} {start stop : Nat} {segments : List (List Char)}
    {cuts : List Nat} (nonempty : segments ≠ [])
    (rest : rangesFrom (start + char.utf8Size) segments =
      between (start + char.utf8Size) stop cuts) :
    rangesFrom start (consFirst char segments) = between start stop cuts := by
  cases segments with
  | nil => exact absurd rfl nonempty
  | cons segment segments =>
      cases cuts <;>
        simpa [rangesFrom, between, consFirst, Nat.add_assoc] using rest

/-- What is behind an offset is cut at the separators from there on. -/
theorem rangesFrom_cut (splits : SplitsAt text offset before behind) (cuts : Option Nat)
    {escaping : Bool} (remembers : Remembers text offset escaping) :
    rangesFrom offset (cut cuts escaping behind) =
      between offset text.utf8ByteSize (firstOf cuts (separatorsFrom text offset)) := by
  induction behind generalizing offset before cuts escaping with
  | nil =>
      have atEnd : text.utf8ByteSize = offset := by
        rw [← byteLength_toList, splits.toList_eq, List.append_nil, splits.byteLength_eq]
      have noneLeft : firstOf cuts (separatorsFrom text offset) = [] := by
        unfold separatorsFrom
        rw [atEnd, Nat.sub_self]
        cases cuts <;> simp [firstOf]
      rw [noneLeft, atEnd]
      rfl
  | cons char behind ih =>
      have separatesIff := isSeparator_iff splits remembers
      unfold cut
      split
      · rename_i isBackslash
        subst char
        have other : ¬ IsSeparator text offset := fun isSeparator =>
          absurd (separatesIff.mp isSeparator).1 (by decide)
        rw [separatorsFrom_eq_of_not_isSeparator splits other]
        exact rangesFrom_consFirst (cut_ne_nil _ _ _)
          (ih splits.next cuts (remembers.behind_backslash splits))
      · rename_i notBackslash
        have forgets := remembers_behind_other splits notBackslash
        split
        · rename_i separates
          simp only [Bool.and_eq_true, decide_eq_true_eq, Bool.not_eq_true', bne_iff_ne]
            at separates
          obtain ⟨⟨rfl, notEscaping⟩, more⟩ := separates
          have isSeparator := separatesIff.mpr ⟨rfl, notEscaping⟩
          have one : '|'.utf8Size = 1 := by decide
          have rest := ih splits.next (cuts.map (· - 1)) forgets
          rw [one] at rest
          rw [separatorsFrom_eq_cons isSeparator, firstOf_cons more, between, ← rest]
          rfl
        · rename_i joins
          have same : firstOf cuts (separatorsFrom text offset) =
              firstOf cuts (separatorsFrom text (offset + char.utf8Size)) := by
            by_cases isSeparator : IsSeparator text offset
            · -- a separator that is not cut at lies behind the last cut
              have spent : cuts = some 0 := by
                by_contra more
                exact joins (by simp [separatesIff.mp isSeparator, more])
              rw [spent]
              rfl
            · rw [separatorsFrom_eq_of_not_isSeparator splits isSeparator]
          rw [same]
          exact rangesFrom_consFirst (cut_ne_nil _ _ _) (ih splits.next cuts forgets)

end Walk

/-- The ranges of a text are what its separators, or as many of the first ones as the
limit allows, leave between them. -/
theorem ranges_eq_between (text : String) (limit : Option Nat) :
    ranges text limit = between 0 text.utf8ByteSize
      (firstOf (limit.map fun limit => max limit 1 - 1) (separators text)) := by
  have start : SplitsAt text 0 [] text.toList := ⟨rfl, rfl⟩
  have allowed : (limit.map fun limit => max limit 1 - 1) = limit.map (· - 1) := by
    cases limit with
    | none => rfl
    | some limit =>
        have same : max limit 1 - 1 = limit - 1 := by omega
        exact congrArg some same
  rw [allowed]
  exact rangesFrom_cut start (limit.map (· - 1)) rfl

/-! ## Segments and their ranges -/

/-- Segments that make up what is behind an offset are the slices in the ranges from
there, and these ranges lie between boundaries. -/
theorem slices_rangesFrom {segments : List (List Char)} (nonempty : segments ≠ [])
    {offset : Nat} {before : List Char}
    (splits : SplitsAt text offset before (['|'].intercalate segments)) :
    (rangesFrom offset segments).map (fun range => slice text range.start range.stop) =
      segments.map String.ofList ∧
    ∀ range ∈ rangesFrom offset segments, range.start ≤ range.stop ∧
      isBoundary text range.start = true ∧ isBoundary text range.stop = true := by
  induction segments generalizing offset before with
  | nil => exact absurd rfl nonempty
  | cons segment segments ih =>
      cases segments with
      | nil =>
          rw [List.intercalate_singleton, ← List.append_nil segment] at splits
          refine ⟨congrArg (fun slice => [slice]) splits.slice_eq, ?_⟩
          intro range member
          rw [List.mem_singleton.mp member]
          exact ⟨Nat.le_add_right _ _, splits.isBoundary, splits.advance.isBoundary⟩
      | cons next segments =>
          have pipe : '|'.utf8Size = 1 := by decide
          rw [List.intercalate_cons_cons, List.append_assoc] at splits
          obtain ⟨slices, bounds⟩ := ih (by simp) (splits.advance.succ pipe)
          constructor
          · rw [rangesFrom, List.map_cons, List.map_cons, slices]
            exact congrArg (· :: _) splits.slice_eq
          · intro range member
            rcases List.mem_cons.mp member with rfl | later
            · exact ⟨Nat.le_add_right _ _, splits.isBoundary, splits.advance.isBoundary⟩
            · exact bounds range later

/-- Every range begins behind the pipe that ends the one before. -/
theorem pairwise_rangesFrom (offset : Nat) (segments : List (List Char)) :
    (∀ range ∈ rangesFrom offset segments, offset ≤ range.start) ∧
      (rangesFrom offset segments).Pairwise fun first second => first.stop < second.start := by
  induction segments generalizing offset with
  | nil => exact ⟨nofun, .nil⟩
  | cons segment segments ih =>
      obtain ⟨later, inOrder⟩ := ih (offset + byteLength segment + 1)
      constructor
      · intro range member
        rcases List.mem_cons.mp member with rfl | behind
        · exact Nat.le_refl offset
        · exact Nat.le_trans (by omega) (later range behind)
      · exact .cons (fun range member => later range member) inOrder

@[simp]
theorem length_rangesFrom (offset : Nat) (segments : List (List Char)) :
    (rangesFrom offset segments).length = segments.length := by
  induction segments generalizing offset with
  | nil => rfl
  | cons segment segments ih => exact congrArg (· + 1) (ih _)

/-! ## Limits -/

@[simp]
theorem joinBehind_zero {α : Type} (join : List α → α) {segments : List α}
    (nonempty : segments ≠ []) : joinBehind join 0 segments = [join segments] := by
  unfold joinBehind
  rw [if_neg (by simpa using nonempty)]
  rfl

@[simp]
theorem joinBehind_succ {α : Type} (join : List α → α) (count : Nat) (segment : α)
    (segments : List α) :
    joinBehind join (count + 1) (segment :: segments) =
      segment :: joinBehind join count segments := by
  unfold joinBehind
  by_cases few : segments.length ≤ count
  · rw [if_pos few, if_pos (by simpa using few)]
  · rw [if_neg few, if_neg (by simpa using few)]
    rfl

theorem map_joinBehind {α β : Type} {join : List α → α} {joinMapped : List β → β} {map : α → β}
    (agrees : ∀ segments, map (join segments) = joinMapped (segments.map map)) (count : Nat)
    (segments : List α) :
    (joinBehind join count segments).map map = joinBehind joinMapped count (segments.map map) := by
  unfold joinBehind
  rw [List.length_map]
  split
  · rfl
  · rw [List.map_append, List.map_take, List.map_singleton, agrees, List.map_drop]

theorem joinBehind_consFirst (count : Nat) (char : Char) {segments : List (List Char)}
    (nonempty : segments ≠ []) :
    joinBehind ['|'].intercalate count (consFirst char segments) =
      consFirst char (joinBehind ['|'].intercalate count segments) := by
  cases segments with
  | nil => exact absurd rfl nonempty
  | cons segment segments =>
      cases count with
      | zero =>
          have whole : consFirst char (segment :: segments) ≠ [] := nofun
          rw [joinBehind_zero _ whole, joinBehind_zero _ nonempty,
            intercalate_consFirst char nonempty]
          rfl
      | succ count =>
          rw [consFirst, joinBehind_succ, joinBehind_succ, consFirst]

/-- A bound on the cuts joins what would have been cut behind the last one. -/
theorem cut_some (count : Nat) (escaping : Bool) (chars : List Char) :
    cut (some count) escaping chars =
      joinBehind ['|'].intercalate count (cut none escaping chars) := by
  induction chars generalizing count escaping with
  | nil => cases count <;> rfl
  | cons char chars ih =>
      unfold cut
      by_cases isBackslash : char = '\\'
      · rw [if_pos isBackslash, if_pos isBackslash, ih,
          joinBehind_consFirst count char (cut_ne_nil _ _ _)]
      · rw [if_neg isBackslash, if_neg isBackslash]
        by_cases separates : (char = '|' && !escaping) = true
        · have nonempty := cut_ne_nil none false chars
          obtain rfl : char = '|' := by simpa using (Bool.and_eq_true_iff.mp separates).1
          cases count with
          | zero =>
              rw [if_neg (by simp), if_pos (by simpa using separates), ih,
                joinBehind_zero _ nonempty, joinBehind_zero _ (by simp), Option.map_none,
                List.intercalate_cons_of_ne_nil nonempty]
              rfl
          | succ count =>
              rw [if_pos (by simpa using separates), if_pos (by simpa using separates),
                Option.map_some, Nat.add_sub_cancel, ih, Option.map_none, joinBehind_succ]
        · rw [if_neg (by simp_all), if_neg (by simp_all), ih,
            joinBehind_consFirst count char (cut_ne_nil _ _ _)]

theorem ofList_intercalate (segments : List (List Char)) :
    String.ofList (['|'].intercalate segments) =
      "|".intercalate (segments.map String.ofList) := by
  rw [← String.toList_inj, String.toList_ofList, String.toList_intercalate, List.map_map]
  simp

theorem split_some (text : String) (limit : Nat) :
    split text (some limit) =
      joinBehind "|".intercalate (max limit 1 - 1) (split text none) := by
  have count : max limit 1 - 1 = limit - 1 := by omega
  have joined : segments (some limit) text.toList =
      joinBehind ['|'].intercalate (limit - 1) (segments none text.toList) := cut_some _ _ _
  unfold split
  rw [joined, count, map_joinBehind ofList_intercalate]

/-- A text is cut exactly at the pipes behind an even number of backslashes, with a limit
of `n` at the first `n - 1` of them.  So the segments are the slices of the text in ranges
that lie in order between boundaries of characters; with pipes between them they are the
text; there is one more of them than cuts; and a limit joins those that it does not
allow. -/
theorem split_at_separators (text : String) (limit : Option Nat) :
    ranges text limit = between 0 text.utf8ByteSize
      (firstOf (limit.map fun limit => max limit 1 - 1) (separators text)) ∧
    split text limit =
      (ranges text limit).map (fun range => slice text range.start range.stop) ∧
    ((ranges text limit).Pairwise fun first second => first.stop < second.start) ∧
    (∀ range ∈ ranges text limit, range.start ≤ range.stop ∧
      isBoundary text range.start = true ∧ isBoundary text range.stop = true) ∧
    "|".intercalate (split text limit) = text ∧
    (split text limit).length = (match limit with
      | none => (separators text).length + 1
      | some limit => min (max limit 1) ((separators text).length + 1)) ∧
    ∀ limit, split text (some limit) =
      joinBehind "|".intercalate (max limit 1 - 1) (split text none) := by
  have whole : SplitsAt text 0 [] (['|'].intercalate (segments limit text.toList)) :=
    ⟨(intercalate_segments limit text.toList).symm, rfl⟩
  obtain ⟨slices, bounds⟩ := slices_rangesFrom (cut_ne_nil _ _ _) whole
  have cutsEq := ranges_eq_between text limit
  refine ⟨cutsEq, slices.symm, (pairwise_rangesFrom 0 _).2, bounds, ?_, ?_, split_some text⟩
  · unfold split
    rw [← ofList_intercalate, intercalate_segments, String.ofList_toList]
  · have count : (split text limit).length = (ranges text limit).length := by
      unfold split ranges
      rw [List.length_map, length_rangesFrom]
    rw [count, cutsEq, length_between, firstOf_length]
    cases limit with
    | none => rfl
    | some limit =>
        simp only [Option.map_some]
        omega

end WikiPress.Pipe
