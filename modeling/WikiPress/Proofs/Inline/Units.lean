import Mathlib.Data.List.Chain
import Mathlib.Data.List.TakeWhile
import Mathlib.Tactic.ByContra
import WikiPress.Inline.Tokenizer
import WikiPress.Proofs.Text.Offset
import WikiPress.Proofs.Token.Nesting

/-!
# Well-formed units

The units of a run are well formed when they divide its source, one behind the other,
and their opening and closing tokens are well nested.  `SourceUnit.marksIn` are the kinds
of these tokens in a range; a border is a position at which a range can be cut into two
without cutting a unit other than literal text.
-/

namespace WikiPress.SourceUnit

/-- The kind of token of a unit that opens or closes an element. -/
def mark? (sourceUnit : SourceUnit) : Option Token.Kind :=
  match sourceUnit.content with
  | .opening token => some token.kind
  | .closing token => some token.kind
  | _ => none

/-- The token of a unit has the role that the unit gives it. -/
def Fits (sourceUnit : SourceUnit) : Prop :=
  match sourceUnit.content with
  | .text _ _ => True
  | .opening token => ∃ closer, token.kind.role = .opening closer
  | .closing token => token.kind.role = .closing
  | .leaf token => token.kind.role = .neutral

/-- Units that divide a source. -/
structure WellFormed (source : String) (units : List SourceUnit) : Prop where
  nonempty : ∀ sourceUnit ∈ units, sourceUnit.start < sourceUnit.stop
  boundaries : ∀ sourceUnit ∈ units,
    Text.isBoundary source sourceUnit.start = true ∧
      Text.isBoundary source sourceUnit.stop = true
  inOrder : units.IsChain fun first second => first.stop ≤ second.start
  literal : ∀ sourceUnit ∈ units, ∀ content, sourceUnit.content = .text content true →
    Text.slice? source sourceUnit.start sourceUnit.stop = some content
  fits : ∀ sourceUnit ∈ units, sourceUnit.Fits
  nested : Token.Kind.WellNested (units.filterMap mark?)

instance (sourceUnit : SourceUnit) : Decidable sourceUnit.Fits :=
  match sourceUnit with
  | ⟨_, _, .text _ _⟩ => .isTrue trivial
  | ⟨_, _, .opening token⟩ =>
      match h : token.kind.role with
      | .opening closer => .isTrue ⟨closer, h⟩
      | .closing | .neutral => .isFalse fun ⟨_, role⟩ => by simp [h] at role
  | ⟨_, _, .closing token⟩ => inferInstanceAs (Decidable (token.kind.role = .closing))
  | ⟨_, _, .leaf token⟩ => inferInstanceAs (Decidable (token.kind.role = .neutral))

/-- Only the content that a unit has is compared with the source. -/
instance decidableLiteral (source : String) (sourceUnit : SourceUnit) :
    Decidable (∀ content, sourceUnit.content = .text content true →
      Text.slice? source sourceUnit.start sourceUnit.stop = some content) :=
  match sourceUnit with
  | ⟨start, stop, .text content true⟩ =>
      decidable_of_iff (Text.slice? source start stop = some content) (by simp)
  | ⟨_, _, .text _ false⟩ | ⟨_, _, .opening _⟩ | ⟨_, _, .closing _⟩ | ⟨_, _, .leaf _⟩ =>
      .isTrue (by simp)

instance (source : String) (units : List SourceUnit) : Decidable (WellFormed source units) :=
  decidable_of_iff
    ((∀ sourceUnit ∈ units, sourceUnit.start < sourceUnit.stop) ∧
      (∀ sourceUnit ∈ units, Text.isBoundary source sourceUnit.start = true ∧
        Text.isBoundary source sourceUnit.stop = true) ∧
      (units.IsChain fun first second => first.stop ≤ second.start) ∧
      (∀ sourceUnit ∈ units, ∀ content, sourceUnit.content = .text content true →
        Text.slice? source sourceUnit.start sourceUnit.stop = some content) ∧
      (∀ sourceUnit ∈ units, sourceUnit.Fits) ∧
      Token.Kind.WellNested (units.filterMap mark?))
    ⟨fun ⟨nonempty, boundaries, inOrder, literal, fits, nested⟩ =>
        ⟨nonempty, boundaries, inOrder, literal, fits, nested⟩,
      fun ⟨nonempty, boundaries, inOrder, literal, fits, nested⟩ =>
        ⟨nonempty, boundaries, inOrder, literal, fits, nested⟩⟩

/-- Units that are not empty, one behind the other. -/
structure Ordered (units : List SourceUnit) : Prop where
  nonempty : ∀ sourceUnit ∈ units, sourceUnit.start < sourceUnit.stop
  pairwise : units.Pairwise fun first second => first.stop ≤ second.start

theorem WellFormed.ordered {source : String} {units : List SourceUnit}
    (wellFormed : WellFormed source units) : Ordered units := by
  refine ⟨wellFormed.nonempty, ?_⟩
  have nonempty := wellFormed.nonempty
  have inOrder := wellFormed.inOrder
  clear wellFormed
  induction units with
  | nil => exact .nil
  | cons first rest ih =>
      cases rest with
      | nil => exact List.pairwise_singleton _ first
      | cons second rest =>
          obtain ⟨next, restInOrder⟩ := List.isChain_cons_cons.mp inOrder
          have pairwise := ih (fun sourceUnit member =>
            nonempty sourceUnit (List.mem_cons_of_mem first member)) restInOrder
          refine .cons ?_ pairwise
          intro later member
          rcases List.mem_cons.mp member with rfl | behind
          · exact next
          · have secondNonempty := nonempty second (by simp)
            have behindSecond := List.rel_of_pairwise_cons pairwise behind
            omega

namespace Ordered

variable {units : List SourceUnit}

theorem of_cons {first : SourceUnit} {rest : List SourceUnit}
    (ordered : Ordered (first :: rest)) : Ordered rest :=
  ⟨fun sourceUnit member => ordered.nonempty sourceUnit (List.mem_cons_of_mem first member),
    ordered.pairwise.of_cons⟩

/-- All units behind the first one begin behind its end. -/
theorem stop_le_start {first : SourceUnit} {rest : List SourceUnit}
    (ordered : Ordered (first :: rest)) {later : SourceUnit} (member : later ∈ rest) :
    first.stop ≤ later.start :=
  List.rel_of_pairwise_cons ordered.pairwise member

theorem append_left {first rest : List SourceUnit} (ordered : Ordered (first ++ rest)) :
    Ordered first :=
  ⟨fun sourceUnit member => ordered.nonempty sourceUnit (List.mem_append_left rest member),
    (List.pairwise_append.mp ordered.pairwise).1⟩

theorem append_right {first rest : List SourceUnit} (ordered : Ordered (first ++ rest)) :
    Ordered rest :=
  ⟨fun sourceUnit member => ordered.nonempty sourceUnit (List.mem_append_right first member),
    (List.pairwise_append.mp ordered.pairwise).2.1⟩

end Ordered

/-! ## Marks of a range -/

/-- The mark of a unit that lies in a range. -/
def markIn? (start stop : Nat) (sourceUnit : SourceUnit) : Option Token.Kind :=
  if start ≤ sourceUnit.start ∧ sourceUnit.stop ≤ stop then sourceUnit.mark? else none

/-- The kinds of tokens that open and close elements in a range. -/
def marksIn (units : List SourceUnit) (start stop : Nat) : List Token.Kind :=
  units.filterMap (markIn? start stop)

@[simp]
theorem marksIn_append (first rest : List SourceUnit) (start stop : Nat) :
    marksIn (first ++ rest) start stop = marksIn first start stop ++ marksIn rest start stop :=
  List.filterMap_append

@[simp]
theorem marksIn_cons (sourceUnit : SourceUnit) (rest : List SourceUnit) (start stop : Nat) :
    marksIn (sourceUnit :: rest) start stop =
      (markIn? start stop sourceUnit).toList ++ marksIn rest start stop := by
  unfold marksIn
  cases mark : markIn? start stop sourceUnit with
  | none => rw [List.filterMap_cons_none mark]; rfl
  | some kind => rw [List.filterMap_cons_some mark]; rfl

/-- Units of which none lies in a range leave no marks in it. -/
theorem marksIn_eq_nil {units : List SourceUnit} {start stop : Nat}
    (outside : ∀ sourceUnit ∈ units, ¬ (start ≤ sourceUnit.start ∧ sourceUnit.stop ≤ stop)) :
    marksIn units start stop = [] := by
  unfold marksIn
  rw [List.filterMap_eq_nil_iff]
  intro sourceUnit member
  exact if_neg (outside sourceUnit member)

theorem Ordered.marksIn_eq_nil_of_le_start {units : List SourceUnit} (ordered : Ordered units)
    {start stop : Nat} (behind : ∀ sourceUnit ∈ units, stop ≤ sourceUnit.start) :
    marksIn units start stop = [] := by
  apply marksIn_eq_nil
  intro sourceUnit member inside
  have begins := behind sourceUnit member
  have nonempty := ordered.nonempty sourceUnit member
  omega

theorem Ordered.marksIn_eq_nil_of_stop_le {units : List SourceUnit} (ordered : Ordered units)
    {start stop : Nat} (passed : ∀ sourceUnit ∈ units, sourceUnit.stop ≤ start) :
    marksIn units start stop = [] := by
  apply marksIn_eq_nil
  intro sourceUnit member inside
  have ends := passed sourceUnit member
  have nonempty := ordered.nonempty sourceUnit member
  omega

theorem mark?_of_isLiteral {sourceUnit : SourceUnit} (literal : sourceUnit.isLiteral = true) :
    sourceUnit.mark? = none := by
  unfold isLiteral at literal
  unfold mark?
  split at literal
  · rename_i content
    rw [content]
  · cases literal

/-! ## Borders -/

/-- No unit but literal text lies on both sides of a position. -/
def Clean (units : List SourceUnit) (position : Nat) : Prop :=
  ∀ sourceUnit ∈ units, sourceUnit.isLiteral = false →
    ¬ (sourceUnit.start < position ∧ position < sourceUnit.stop)

/-- A range is cut at a clean position without losing a mark. -/
theorem marksIn_split {units : List SourceUnit} (ordered : Ordered units)
    {start middle stop : Nat} (clean : Clean units middle) (startLe : start ≤ middle)
    (leStop : middle ≤ stop) :
    marksIn units start stop = marksIn units start middle ++ marksIn units middle stop := by
  induction units with
  | nil => rfl
  | cons sourceUnit rest ih =>
      have nonempty := ordered.nonempty sourceUnit List.mem_cons_self
      have split := ih ordered.of_cons fun other member =>
        clean other (List.mem_cons_of_mem sourceUnit member)
      rw [marksIn_cons, marksIn_cons, marksIn_cons]
      by_cases before : sourceUnit.stop ≤ middle
      · have notBehind : markIn? middle stop sourceUnit = none := if_neg (by omega)
        have same : markIn? start stop sourceUnit = markIn? start middle sourceUnit := by
          unfold markIn?
          simp only [before, Nat.le_trans before leStop]
        rw [notBehind, same, split]
        simp
      · by_cases behind : middle ≤ sourceUnit.start
        · have noneBefore : marksIn rest start middle = [] := by
            apply ordered.of_cons.marksIn_eq_nil_of_le_start
            intro other member
            have later := ordered.stop_le_start member
            omega
          have notBefore : markIn? start middle sourceUnit = none := if_neg (by omega)
          have same : markIn? start stop sourceUnit = markIn? middle stop sourceUnit := by
            unfold markIn?
            simp only [behind, Nat.le_trans startLe behind]
          rw [notBefore, same, split, noneBefore]
          rfl
        · -- only literal text lies on both sides, and it has no mark
          have literal : sourceUnit.isLiteral = true := by
            by_contra notLiteral
            apply clean sourceUnit List.mem_cons_self (by simpa using notLiteral)
            omega
          have noMark := mark?_of_isLiteral literal
          have none : ∀ first last, markIn? first last sourceUnit = none := by
            intro first last
            unfold markIn?
            rw [noMark, ite_self]
          rw [none, none, none, split]
          rfl

/-! ## Balanced ranges -/

/-- No unit that begins at a position or behind it lies on both sides. -/
theorem clean_of_le_start {units : List SourceUnit} {position : Nat}
    (behind : ∀ sourceUnit ∈ units, position ≤ sourceUnit.start) : Clean units position := by
  intro sourceUnit member _ inside
  have start := behind sourceUnit member
  omega

theorem clean_cons {sourceUnit : SourceUnit} {rest : List SourceUnit} {position : Nat}
    (first : sourceUnit.isLiteral = false →
      ¬ (sourceUnit.start < position ∧ position < sourceUnit.stop))
    (clean : Clean rest position) : Clean (sourceUnit :: rest) position := by
  intro other member notLiteral
  rcases List.mem_cons.mp member with rfl | later
  · exact first notLiteral
  · exact clean other later notLiteral

/-- The count goes on as the mark of a unit says. -/
theorem of_count {sourceUnit : SourceUnit} (fits : sourceUnit.Fits) {depth final : Nat}
    (count : Nat → Option Nat)
    (counted : (match sourceUnit.content with
      | .opening _ => count (depth + 1)
      | .closing _ => if depth = 0 then none else count (depth - 1)
      | _ => count depth) = some final) :
    ∃ next, count next = some final ∧
      Token.Kind.depth? depth sourceUnit.mark?.toList = some next := by
  unfold Fits at fits
  unfold mark?
  cases content : sourceUnit.content with
  | text text isLiteral =>
      rw [content] at counted
      exact ⟨depth, counted, rfl⟩
  | leaf token =>
      rw [content] at counted
      exact ⟨depth, counted, rfl⟩
  | opening token =>
      rw [content] at counted fits
      obtain ⟨closer, role⟩ := fits
      refine ⟨depth + 1, counted, ?_⟩
      simp [Token.Kind.depth?_cons, Token.Kind.countOpen?, role]
  | closing token =>
      rw [content] at counted fits
      simp only at counted fits
      split at counted
      · cases counted
      · rename_i positive
        refine ⟨depth - 1, counted, ?_⟩
        simp [Token.Kind.depth?_cons, Token.Kind.countOpen?, fits, positive]

theorem of_depthBehind? {units : List SourceUnit} (ordered : Ordered units)
    (fits : ∀ sourceUnit ∈ units, sourceUnit.Fits) {start stop depth final : Nat}
    (inOrder : start ≤ stop) (reach : ∀ sourceUnit ∈ units, start < sourceUnit.stop)
    (counted : InlineState.depthBehind? start stop depth units = some final) :
    Clean units start ∧ Clean units stop ∧
      Token.Kind.depth? depth (marksIn units start stop) = some final := by
  induction units generalizing depth with
  | nil =>
      cases counted
      exact ⟨nofun, nofun, rfl⟩
  | cons sourceUnit rest ih =>
      have nonempty := ordered.nonempty sourceUnit List.mem_cons_self
      have fitting := fits sourceUnit List.mem_cons_self
      have behindFirst : ∀ next,
          InlineState.depthBehind? start stop next rest = some final →
            Clean rest start ∧ Clean rest stop ∧
              Token.Kind.depth? next (marksIn rest start stop) = some final := fun next =>
        @ih ordered.of_cons
          (fun other member => fits other (List.mem_cons_of_mem sourceUnit member)) next
          (fun other member => reach other (List.mem_cons_of_mem sourceUnit member))
      unfold InlineState.depthBehind? at counted
      split at counted
      · -- this unit and all behind it begin behind the range
        rename_i beyond
        cases counted
        have behind : ∀ other ∈ sourceUnit :: rest, stop ≤ other.start := by
          intro other member
          rcases List.mem_cons.mp member with rfl | later
          · exact beyond
          · have order := ordered.stop_le_start later
            omega
        refine ⟨clean_of_le_start fun other member =>
          Nat.le_trans inOrder (behind other member), clean_of_le_start behind, ?_⟩
        rw [ordered.marksIn_eq_nil_of_le_start behind]
        rfl
      · rename_i begins
        split at counted
        · rename_i crosses
          split at counted
          · rename_i literal
            obtain ⟨cleanStart, cleanStop, count⟩ := behindFirst depth counted
            refine ⟨clean_cons (by simp [literal]) cleanStart,
              clean_cons (by simp [literal]) cleanStop, ?_⟩
            have noMark : markIn? start stop sourceUnit = none := by
              unfold markIn?
              rw [mark?_of_isLiteral literal, ite_self]
            rw [marksIn_cons, noMark]
            exact count
          · cases counted
        · rename_i inside
          simp only [Bool.or_eq_true, decide_eq_true_eq, not_or, Nat.not_lt] at inside
          have mark : markIn? start stop sourceUnit = sourceUnit.mark? := if_pos inside
          obtain ⟨next, restCounted, counts⟩ := of_count fitting
            (fun next => InlineState.depthBehind? start stop next rest) counted
          obtain ⟨cleanStart, cleanStop, count⟩ := behindFirst next restCounted
          refine ⟨clean_cons (fun _ => by omega) cleanStart,
            clean_cons (fun _ => by omega) cleanStop, ?_⟩
          rw [marksIn_cons, mark, Token.Kind.depth?_append, counts]
          exact count

/-- Behind the units that end before a position, all end behind it. -/
theorem Ordered.lt_stop_of_mem_dropWhile {units : List SourceUnit} (ordered : Ordered units)
    {start : Nat} {sourceUnit : SourceUnit}
    (member : sourceUnit ∈ units.dropWhile fun sourceUnit => sourceUnit.stop ≤ start) :
    start < sourceUnit.stop := by
  induction units with
  | nil => cases member
  | cons first rest ih =>
      by_cases passed : first.stop ≤ start
      · rw [List.dropWhile_cons_of_pos (by simpa using passed)] at member
        exact ih ordered.of_cons member
      · rw [List.dropWhile_cons_of_neg (by simpa using passed)] at member
        rcases List.mem_cons.mp member with rfl | later
        · omega
        · have order := ordered.stop_le_start later
          have nonempty := ordered.nonempty sourceUnit member
          omega

/-- A range that is balanced is cut out cleanly, and its marks open and close one
another. -/
theorem of_isBalanced {units : List SourceUnit} (ordered : Ordered units)
    (fits : ∀ sourceUnit ∈ units, sourceUnit.Fits) {state : InlineState}
    (unitsEq : state.units = units) {start stop : Nat} (inOrder : start ≤ stop)
    (balanced : state.isBalanced start stop = true) :
    Clean units start ∧ Clean units stop ∧
      Token.Kind.depth? 0 (marksIn units start stop) = some 0 := by
  unfold InlineState.isBalanced at balanced
  rw [unitsEq, beq_iff_eq] at balanced
  let passes (sourceUnit : SourceUnit) : Bool := sourceUnit.stop ≤ start
  have split : units = units.takeWhile passes ++ units.dropWhile passes :=
    List.takeWhile_append_dropWhile.symm
  have passedStop : ∀ sourceUnit ∈ units.takeWhile passes, sourceUnit.stop ≤ start := by
    intro sourceUnit member
    simpa [passes] using List.mem_takeWhile_imp member
  have aheadOrdered : Ordered (units.dropWhile passes) := (split ▸ ordered).append_right
  obtain ⟨cleanStart, cleanStop, count⟩ := of_depthBehind? aheadOrdered
    (fun sourceUnit member => fits sourceUnit (List.dropWhile_sublist passes |>.mem member))
    inOrder (fun _ => ordered.lt_stop_of_mem_dropWhile) balanced
  have passedMarks : marksIn (units.takeWhile passes) start stop = [] :=
    (split ▸ ordered).append_left.marksIn_eq_nil_of_stop_le passedStop
  have cleanAll : ∀ position, start ≤ position → Clean (units.dropWhile passes) position →
      Clean units position := by
    intro position behindStart clean sourceUnit member notLiteral
    rw [split] at member
    rcases List.mem_append.mp member with passed | ahead
    · have stop := passedStop sourceUnit passed
      omega
    · exact clean sourceUnit ahead notLiteral
  refine ⟨cleanAll start (Nat.le_refl start) cleanStart, cleanAll stop inOrder cleanStop, ?_⟩
  rw [split, marksIn_append, passedMarks]
  exact count

end WikiPress.SourceUnit
