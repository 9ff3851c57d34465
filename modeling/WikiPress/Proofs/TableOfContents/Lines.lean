import WikiPress.Proofs.TableOfContents.Listing
import WikiPress.TableOfContents

/-!
# The lines of a table of contents

A table of contents is written as Markdown, with one line for each heading that is listed.
If the texts and ids of these headings mean nothing to the brackets and parentheses around
them, the lines are a listing, and the targets of its links are the addresses of the
headings.
-/

namespace WikiPress

open Text Markdown

namespace TableOfContents

/-! ## Plain entries -/

/-- The text and the id of an entry mean nothing to the brackets and parentheses that they
are written in. -/
structure Entry.IsPlain (entry : Entry) : Prop where
  text : entry.text.toList.all isLabelChar = true
  id : entry.id.toList.all isTargetChar = true

instance (entry : Entry) : Decidable entry.IsPlain :=
  decidable_of_iff
    (entry.text.toList.all isLabelChar = true ∧ entry.id.toList.all isTargetChar = true)
    ⟨fun plain => ⟨plain.1, plain.2⟩, fun plain => ⟨plain.text, plain.id⟩⟩

/-- Where the link of an entry leads. -/
def Entry.address (entry : Entry) : String :=
  "#" ++ entry.id

@[simp]
theorem Entry.toList_address (entry : Entry) : entry.address.toList = '#' :: entry.id.toList := by
  unfold Entry.address
  rw [String.toList_append]
  rfl

/-! ## The lines -/

theorem toList_line (entry : Entry) (depth : Nat) :
    (line entry depth).toList =
      List.replicate (3 * depth) ' ' ++ '1' :: '.' :: ' ' :: '[' ::
        (entry.text.toList ++ ']' :: '(' :: (entry.address.toList ++ [')', '\n'])) := by
  have indented : (String.join (List.replicate depth "   ")).toList =
      List.replicate (3 * depth) ' ' := by
    rw [String.toList_join]
    induction depth with
    | zero => rfl
    | succ depth ih =>
        rw [List.replicate_succ, List.flatMap_cons, ih, Nat.mul_succ, Nat.add_comm,
          List.replicate_add]
        rfl
  unfold line Entry.address
  rw [String.toList_append, indented]
  simp [toString, String.toList_append]

/-- A line that stands in a text is the line of an item. -/
theorem Entry.IsPlain.itemLine {entry : Entry} (plain : entry.IsPlain) {text : String}
    {start : Nat} {before behind : List Char}
    (splits : SplitsAt text start before ('1' :: '.' :: ' ' :: '[' ::
      (entry.text.toList ++ ']' :: '(' :: (entry.address.toList ++ ')' :: '\n' :: behind)))) :
    ∃ labelStop targetStop, ItemLine (Window.whole text) start labelStop targetStop ∧
      (Window.whole text).slice (labelStop + 2) targetStop = entry.address ∧
      ∃ before, SplitsAt text (targetStop + 2) before behind := by
  have point := splits.succ rfl
  have space := point.succ rfl
  have opening := space.succ rfl
  have label := opening.succ rfl
  have closing := label.advance
  have parenthesis := closing.succ rfl
  have target := parenthesis.succ rfl
  have close := target.advance
  have newline := close.succ rfl
  have addressChars : ∀ char ∈ entry.address.toList, isTargetChar char = true := by
    rw [entry.toList_address]
    exact List.forall_mem_cons.mpr ⟨by decide, List.all_eq_true.mp plain.id⟩
  have sign := target
  rw [entry.toList_address, List.cons_append] at sign
  have nonempty : 0 < byteLength entry.address.toList := by
    rw [entry.toList_address, byteLength_cons]
    exact Nat.lt_of_lt_of_le (by decide) (Nat.le_add_right _ _)
  refine ⟨start + 1 + 1 + 1 + 1 + byteLength entry.text.toList,
    start + 1 + 1 + 1 + 1 + byteLength entry.text.toList + 1 + 1 +
      byteLength entry.address.toList, ?_, target.slice_eq.trans String.ofList_toList,
    _, newline.succ rfl⟩
  have mark := ItemMark.of_splitsAt splits
  constructor
  case number => exact mark.number
  case point => exact mark.point
  case space => exact mark.space
  case opening => exact mark.opening
  case label =>
    intro offset startLe inside
    obtain ⟨char, found, isInside | large⟩ := label.exists_byteAt? startLe inside
    · exact ⟨char, (Window.byte?_whole text offset).trans found,
        List.all_eq_true.mp plain.text char isInside⟩
    · exact ⟨char, (Window.byte?_whole text offset).trans found, isLabelChar_of_le large⟩
  case target =>
    intro offset startLe inside
    obtain ⟨char, found, isInside | large⟩ := target.exists_byteAt? startLe inside
    · exact ⟨char, (Window.byte?_whole text offset).trans found, addressChars char isInside⟩
    · exact ⟨char, (Window.byte?_whole text offset).trans found, isTargetChar_of_le large⟩
  case label_inOrder => exact Nat.le_add_right _ _
  case target_inOrder => exact Nat.lt_add_of_pos_right nonempty
  all_goals rw [Window.byte?_whole]
  case closing => exact closing.byteAt?_eq (by decide)
  case parenthesis => exact parenthesis.byteAt?_eq (by decide)
  case sign => exact sign.byteAt?_eq (by decide)
  case close => exact close.byteAt?_eq (by decide)
  case newline => exact newline.byteAt?_eq (by decide)

/-- Lines of plain entries that stand in a text are a listing of their addresses. -/
theorem listing_of_splitsAt (top : Nat) {text : String} {entries : List Entry}
    (plain : ∀ entry ∈ entries, entry.IsPlain) {previous : Option Nat} {start : Nat}
    {before : List Char}
    (splits : SplitsAt text start before
      ((entries.zip (depths top previous entries)).flatMap fun pair =>
        (line pair.1 pair.2).toList)) :
    Listing (Window.whole text) (previous.elim 0 (· + 1)) start (entries.map Entry.address) := by
  induction entries generalizing previous start before with
  | nil =>
      refine .nil (Nat.le_of_eq ?_)
      change text.utf8ByteSize = start
      rw [← byteLength_toList, splits.toList_eq, byteLength_append, splits.byteLength_eq]
      rfl
  | cons entry rest ih =>
      obtain ⟨entryPlain, restPlain⟩ := List.forall_mem_cons.mp plain
      obtain ⟨depth, depthEq⟩ : ∃ depth, depth = previous.elim 0
          fun previous => min (entry.level - top) (previous + 1) := ⟨_, rfl⟩
      have depthsEq : depths top previous (entry :: rest) =
          depth :: depths top (some depth) rest := by
        cases previous <;> rw [depthEq] <;> rfl
      have depthLe : depth ≤ previous.elim 0 (· + 1) := by
        rw [depthEq]
        cases previous with
        | none => exact Nat.le_refl _
        | some previous => exact Nat.min_le_right _ _
      rw [depthsEq, List.zip_cons_cons, List.flatMap_cons, toList_line] at splits
      simp only [List.append_assoc, List.cons_append, List.nil_append] at splits
      have behindSpaces := splits.advance
      rw [byteLength_replicate _ rfl] at behindSpaces
      obtain ⟨labelStop, targetStop, line, target, before, behind⟩ :=
        entryPlain.itemLine behindSpaces
      rw [List.map_cons, ← target]
      refine .cons depthLe ?_ line (ih restPlain behind)
      intro offset startLe inside
      rw [Window.byte?_whole]
      exact splits.byteAt?_replicate (by decide) startLe inside

/-- The Markdown of plain entries is a listing of their addresses. -/
theorem listing_markdown {entries : List Entry} (top : Nat) {requested : Nat}
    (plain : ∀ entry ∈ entries, entry.level ≤ requested → entry.IsPlain) :
    Listing (Window.whole (markdown entries top requested)) 0 0
      ((entries.filter fun entry => entry.level ≤ requested).map Entry.address) := by
  have listedPlain : ∀ entry ∈ entries.filter fun entry => entry.level ≤ requested,
      entry.IsPlain := by
    intro entry member
    obtain ⟨isEntry, listed⟩ := List.mem_filter.mp member
    exact plain entry isEntry (of_decide_eq_true listed)
  refine @listing_of_splitsAt top _ _ listedPlain none 0 [] ⟨?_, rfl⟩
  unfold markdown
  rw [String.toList_join, List.flatMap_map]
  rfl

end TableOfContents

end WikiPress
