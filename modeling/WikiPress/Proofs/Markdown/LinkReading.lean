import Mathlib.Data.List.TakeWhile
import WikiPress.Markdown.Brackets
import WikiPress.Proofs.Markdown.Emphasis
import WikiPress.Proofs.Markdown.Windows

/-!
# A link in running text

Running text of one pair of brackets with a target behind it is a link: what stands in the
brackets stays in the link, as long as it is text, code and emphasis, and nothing is left
behind the target.
-/

namespace WikiPress.Markdown

open Text

/-- The kinds of atoms that become text, code or emphasis. -/
inductive Atom.Kind.Flat : Atom.Kind → Prop where
  | text : Flat .text
  | entity (value : String) : Flat (.entity value)
  | run (mark : Char) (opens closes : Bool) : Flat (.run mark opens closes)
  | ticks : Flat (.ticks false)

/-- Whether an atom is a run of backticks. -/
def Atom.Kind.isTicks : Atom.Kind → Bool
  | .ticks _ => true
  | _ => false

/-! ## Phrases of flat atoms -/

section FlatAtoms

variable {behind : List Atom} (noTicks : ∀ atom ∈ behind, atom.kind.isTicks = false)

include noTicks

theorem closingTicks?_eq_none (count : Nat) : closingTicks? count behind = none := by
  induction behind with
  | nil => rfl
  | cons atom rest ih =>
      obtain ⟨other, restNoTicks⟩ := List.forall_mem_cons.mp noTicks
      unfold closingTicks?
      split
      · rename_i escaped isTicks
        rw [isTicks] at other
        cases other
      · exact ih restNoTicks

/-- A code span that begins in front of other atoms ends in front of them, if there are no
backticks among them. -/
theorem exists_of_closingTicks? {count : Nat} {atoms left : List Atom} {close : Atom}
    (found : closingTicks? count (atoms ++ behind) = some (close, left)) :
    ∃ passed rest, atoms = passed ++ rest ∧ left = rest ++ behind := by
  induction atoms with
  | nil =>
      rw [List.nil_append, closingTicks?_eq_none noTicks] at found
      cases found
  | cons atom atoms ih =>
      have further (found : closingTicks? count (atoms ++ behind) = some (close, left)) :
          ∃ passed rest, atom :: atoms = passed ++ rest ∧ left = rest ++ behind := by
        obtain ⟨passed, rest, rfl, leftEq⟩ := ih found
        exact ⟨atom :: passed, rest, rfl, leftEq⟩
      rw [List.cons_append] at found
      unfold closingTicks? at found
      split at found
      · split at found
        · cases found
          exact ⟨[close], atoms, rfl, rfl⟩
        · exact further found
      · exact further found

omit noTicks in
/-- Backticks are text, or they begin a code span up to others of the same number. -/
theorem Phrasing.addTicks_cases (context : ProseContext) (phrasing : Phrasing) (atom : Atom)
    (rest : List Atom) :
    addTicks context phrasing atom false rest =
        (phrasing.addText context.window atom.start atom.stop, rest) ∨
      ∃ count close left, closingTicks? count rest = some (close, left) ∧
        addTicks context phrasing atom false rest =
          (phrasing.addEvent atom.start close.stop
            (.code (codeContent context atom.stop close.start)), left) := by
  unfold addTicks
  simp only [Bool.false_eq_true, if_false]
  split
  · exact .inl rfl
  · rename_i close left found
    split at found
    · cases found
    · exact .inr ⟨_, close, left, found, rfl⟩

/-- Flat atoms become phrases of text, code and emphasis, and no atom behind them is
taken. -/
theorem Phrasing.exists_read (context : ProseContext) {atoms : List Atom}
    (flat : ∀ atom ∈ atoms, atom.kind.Flat) {fuel : Nat}
    (enough : (atoms ++ behind).length < fuel) (phrasing : Phrasing) :
    ∃ rest phrases, behind.length < rest ∧ (∀ phrase ∈ phrases, phrase.Calm) ∧
      read context fuel phrasing (atoms ++ behind) =
        read context rest { phrasing with phrases := phrases ++ phrasing.phrases } behind := by
  induction fuel generalizing atoms phrasing with
  | zero => exact absurd enough (Nat.not_lt_zero _)
  | succ fuel ih =>
      cases atoms with
      | nil => exact ⟨fuel + 1, [], enough, nofun, rfl⟩
      | cons atom atoms =>
          obtain ⟨atomFlat, restFlat⟩ := List.forall_mem_cons.mp flat
          have enoughLeft : (atoms ++ behind).length < fuel := by simpa using enough
          -- one phrase is added in front of what the remaining atoms become
          have added {phrase : Phrase} (calm : phrase.Calm) {left : List Atom}
              (leftFlat : ∀ atom ∈ left, atom.kind.Flat) (enough : (left ++ behind).length < fuel)
              (stepped : read context (fuel + 1) phrasing (atom :: atoms ++ behind) =
                read context fuel (phrasing.add phrase) (left ++ behind)) :
              ∃ rest phrases, behind.length < rest ∧ (∀ phrase ∈ phrases, phrase.Calm) ∧
                read context (fuel + 1) phrasing (atom :: atoms ++ behind) =
                  read context rest { phrasing with phrases := phrases ++ phrasing.phrases }
                    behind := by
            obtain ⟨rest, phrases, restEnough, phrasesCalm, readEq⟩ :=
              ih leftFlat enough (phrasing.add phrase)
            refine ⟨rest, phrases ++ [phrase], restEnough, ?_, ?_⟩
            · intro other member
              rcases List.mem_append.mp member with later | first
              · exact phrasesCalm other later
              · rw [List.mem_singleton.mp first]
                exact calm
            · rw [stepped, readEq, List.append_assoc]
              rfl
          obtain ⟨start, stop, kind⟩ := atom
          cases atomFlat with
          | text => exact added (.text _ _) restFlat enoughLeft rfl
          | entity value => exact added (.text _ _) restFlat enoughLeft rfl
          | run mark opens closes => exact added (.run _ _ _ _ _) restFlat enoughLeft rfl
          | ticks =>
              have stepped : read context (fuel + 1) phrasing
                    (⟨start, stop, .ticks false⟩ :: atoms ++ behind) =
                  read context fuel
                    (addTicks context phrasing ⟨start, stop, .ticks false⟩ false
                      (atoms ++ behind)).1
                    (addTicks context phrasing ⟨start, stop, .ticks false⟩ false
                      (atoms ++ behind)).2 := rfl
              rcases addTicks_cases context phrasing ⟨start, stop, .ticks false⟩
                (atoms ++ behind) with isText | ⟨count, close, left, found, isCode⟩
              · rw [isText] at stepped
                exact added (.text _ _) restFlat enoughLeft stepped
              · obtain ⟨passed, rest, rfl, rfl⟩ := exists_of_closingTicks? noTicks found
                rw [isCode] at stepped
                refine added (.code _ _) (List.forall_mem_append.mp restFlat).2 ?_ stepped
                rw [List.append_assoc, List.length_append] at enoughLeft
                omega

end FlatAtoms

/-! ## Targets -/

/-- The characters of a target that stand for themselves, wherever they stand in it. -/
def isTargetChar (char : Char) : Bool :=
  ' ' < char && !"()\\&\x60".toList.contains char

/-- Whatever is not ASCII stands for itself. -/
theorem isTargetChar_of_le {char : Char} (large : 128 ≤ char.toNat) :
    isTargetChar char = true := by
  unfold isTargetChar
  simp only [Bool.and_eq_true, decide_eq_true_eq, Bool.not_eq_true', List.contains_eq_mem,
    decide_eq_false_iff_not]
  refine ⟨?_, fun member => ?_⟩
  · exact Nat.lt_of_lt_of_le (by decide : ' '.toNat < 128) large
  · have small : "()\\&\x60".toList.all (·.toNat < 128) = true := by decide
    exact absurd (of_decide_eq_true (List.all_eq_true.mp small char member))
      (Nat.not_lt.mpr large)

theorem isLineBlank_of_isTargetChar {char : Char} (isTarget : isTargetChar char = true) :
    isLineBlank char = false := by
  unfold isLineBlank
  simp only [Bool.or_eq_false_iff, beq_eq_false_iff_ne]
  exact ⟨⟨⟨ne_of_passes isTarget (by decide), ne_of_passes isTarget (by decide)⟩,
    ne_of_passes isTarget (by decide)⟩, ne_of_passes isTarget (by decide)⟩

theorem isLineEnd_of_isTargetChar {char : Char} (isTarget : isTargetChar char = true) :
    isLineEnd char = false := by
  unfold isLineEnd
  simp only [Bool.or_eq_false_iff, beq_eq_false_iff_ne]
  exact ⟨ne_of_passes isTarget (by decide), ne_of_passes isTarget (by decide)⟩

section Targets

variable {window : Window} {start stop : Nat}
  (plain : ∀ offset, start ≤ offset → offset < stop → ∃ char,
    window.byte? offset = some char ∧ isTargetChar char = true)

include plain

theorem plainTargetEnd?_eq (closed : window.byte? stop = some ')') (inOrder : start ≤ stop)
    (depth : Nat) {fuel : Nat} (enough : stop - start < fuel) :
    plainTargetEnd? window depth fuel start 0 = some stop := by
  induction fuel generalizing start with
  | zero => exact absurd enough (Nat.not_lt_zero _)
  | succ fuel ih =>
      unfold plainTargetEnd?
      rcases Nat.eq_or_lt_of_le inOrder with rfl | inside
      · simp only [closed, if_true]
      · obtain ⟨char, found, isTarget⟩ := plain start (Nat.le_refl start) inside
        have noEscape : isEscape window start = false := by
          unfold isEscape
          rw [Window.has_of_byte? found,
            beq_false_of_ne (ne_of_passes isTarget (by decide)), Bool.false_and]
        have visible : ¬ char ≤ ' ' := by
          unfold isTargetChar at isTarget
          exact Char.not_le.mpr (of_decide_eq_true (Bool.and_eq_true_iff.mp isTarget).1)
        have next : plainTargetEnd? window depth fuel (start + 1) 0 = some stop :=
          ih (fun offset startLe => plain offset (by omega)) inside (by omega)
        simp only [found]
        split
        · contradiction
        · rename_i isOpen
          exact absurd (Option.some.inj isOpen) (ne_of_passes isTarget (by decide))
        · rename_i isClose
          exact absurd (Option.some.inj isClose) (ne_of_passes isTarget (by decide))
        · rename_i other same
          cases same
          rw [if_neg visible, noEscape]
          exact next

/-- Nothing of a target is escaped. -/
theorem unescape_eq (inTable : Bool) (inWindow : stop ≤ window.stop) :
    unescape window inTable start stop = window.slice start stop := by
  have stopEq : (window.before stop).stop = stop := Nat.min_eq_right inWindow
  have from' : ∀ offset, start ≤ offset →
      unescapeFrom (window.before stop) inTable start offset = window.slice start stop := by
    intro offset startLe
    induction distance : stop - offset generalizing offset with
    | zero =>
        unfold unescapeFrom
        rw [dif_neg (by omega), stopEq]
        rfl
    | succ distance ih =>
        have inside : offset < stop := by omega
        obtain ⟨char, found, isTarget⟩ := plain offset startLe inside
        rw [← Window.byte?_before inside] at found
        have hasNot (other : Char) (special : isTargetChar other = false) :
            (window.before stop).has offset other = false := by
          rw [Window.has_of_byte? found, beq_false_of_ne (ne_of_passes isTarget special)]
        unfold unescapeFrom
        rw [dif_pos (by omega)]
        simp only [isEscapedPipe, isEscape, Window.startsWith, hasNot '\\' (by decide),
          hasNot '\r' (by decide),
          hasNot '&' (by decide), Bool.false_and, Bool.and_false, Bool.false_eq_true, if_false]
        exact ih (offset + 1) (by omega) (by omega)
  exact from' start (Nat.le_refl start)

end Targets

theorem skipSeparator_eq {context : ProseContext} {offset : Nat} {char : Char}
    (found : context.window.byte? offset = some char) (noBlank : isAsciiBlank char = false) :
    skipSeparator context offset = offset := by
  unfold isAsciiBlank at noBlank
  obtain ⟨noLineBlank, noEnd⟩ := Bool.or_eq_false_iff.mp noBlank
  unfold skipSeparator
  simp only [Window.skipBlanks_of_byte? found noLineBlank, found,
    Window.lineEnd?_of_byte? found noEnd]

/-- The target in parentheses is what stands between them. -/
theorem linkTarget?_eq {context : ProseContext} (atoms : List Atom) {offset stop : Nat}
    {first : Char} (opened : context.window.byte? offset = some '(')
    (begins : context.window.byte? (offset + 1) = some first) (noAngle : first ≠ '<')
    (plain : ∀ position, offset + 1 ≤ position → position < stop → ∃ char,
      context.window.byte? position = some char ∧ isTargetChar char = true)
    (closed : context.window.byte? stop = some ')') (inside : offset + 1 < stop) :
    linkTarget? context atoms offset =
      some (context.window.slice (offset + 1) stop, "", stop + 1) := by
  have isTarget : isTargetChar first = true := by
    obtain ⟨char, found, isTarget⟩ := plain (offset + 1) (Nat.le_refl _) inside
    rw [begins] at found
    rwa [Option.some.inj found]
  have noBlank : isAsciiBlank first = false := by
    unfold isAsciiBlank
    rw [isLineBlank_of_isTargetChar isTarget, isLineEnd_of_isTargetChar isTarget]
    rfl
  have inWindow := Window.lt_stop_of_byte? closed
  have read : target? context.window targetDepth (offset + 1) =
      some (⟨offset + 1, stop⟩, stop) := by
    unfold target?
    rw [Window.has_of_byte? begins, beq_false_of_ne noAngle]
    simp only [Bool.false_eq_true, if_false]
    rw [plainTargetEnd?_eq plain closed (Nat.le_of_lt inside) _ (by omega)]
    rfl
  have noTitle : linkTitle? context atoms stop = none := by
    unfold linkTitle?
    simp [closed]
  unfold linkTarget?
  simp only [Window.has_of_byte? opened, beq_self_eq_true, if_true,
    skipSeparator_eq begins noBlank, read, Option.bind_eq_bind, Option.bind_some,
    skipSeparator_eq closed (by decide), noTitle, Window.has_of_byte? closed,
    unescape_eq plain context.inTable (Nat.le_of_lt inWindow)]

/-! ## The link -/

/-- Where a prose is read. -/
def Prose.context (prose : Prose) (source : Window) (definitions : List Definition) :
    ProseContext where
  window := source.before prose.stop
  containers := prose.containers
  inTable := prose.inTable
  definitions := definitions

/-- A pair of brackets with a target behind it is a link around what stands in the
brackets. -/
theorem Prose.isLink_events {prose : Prose} {source : Window}
    {definitions : List Definition} {opening closing : Atom} {inner tail : List Atom}
    (atomsEq : prose.atoms = opening :: (inner ++ closing :: tail))
    (opens : opening.kind = .linkOpen) (closes : closing.kind = .linkClose true)
    (flat : ∀ atom ∈ inner, atom.kind.Flat)
    (noTicks : ∀ atom ∈ tail, atom.kind.isTicks = false) {target : String} {stop : Nat}
    (ends : ∀ atom ∈ tail, atom.stop ≤ stop)
    (hasTarget : linkTarget? (prose.context source definitions) tail closing.stop =
      some (target, "", stop)) :
    InlineEvent.IsLink ⟨opening.start, stop⟩ target (prose.events source definitions) := by
  let context := prose.context source definitions
  let bracket : OpenBracket :=
    { start := opening.start, stop := opening.stop, isImage := false, before := [] }
  have behindNoTicks : ∀ atom ∈ closing :: tail, atom.kind.isTicks = false :=
    List.forall_mem_cons.mpr ⟨by rw [closes]; rfl, noTicks⟩
  have enough : (inner ++ closing :: tail).length < prose.atoms.length := by
    rw [atomsEq]
    exact Nat.lt_succ_self _
  obtain ⟨rest, phrases, restEnough, calm, readInner⟩ :=
    Phrasing.exists_read behindNoTicks context flat enough { phrases := [], brackets := [bracket] }
  let linked : Phrase :=
    .linked ⟨opening.start, stop⟩ (.link target "") (Phrase.settle phrases.reverse)
  have closed : Phrasing.addClose context
        { phrases := phrases ++ [], brackets := [bracket] } closing true tail =
      ({ phrases := [linked], brackets := [] }, []) := by
    have noneLeft : atomsFrom stop tail = [] := by
      unfold atomsFrom atomsEndingAfter
      rw [List.dropWhile_eq_nil_iff.mpr (by simpa using ends)]
    unfold Phrasing.addClose
    simp only [bracket, Bool.false_eq_true, if_false, context, hasTarget, noneLeft,
      Phrasing.closeBracket, List.append_nil, List.map_nil]
    rfl
  have read : Phrasing.read context (prose.atoms.length + 1) {} prose.atoms =
      { phrases := [linked], brackets := [] } := by
    have first : Phrasing.read context (prose.atoms.length + 1) {}
          (opening :: (inner ++ closing :: tail)) =
        Phrasing.read context prose.atoms.length { phrases := [], brackets := [bracket] }
          (inner ++ closing :: tail) := by
      rw [Phrasing.read, opens]
      rfl
    obtain ⟨rest, rfl⟩ : ∃ fewer, rest = fewer + 1 := ⟨rest - 1, by omega⟩
    rw [← atomsEq] at first
    rw [first, readInner, Phrasing.read, closes]
    simp only [closed]
    cases rest <;> rfl
  refine ⟨Phrase.eventsOf (Phrase.settle phrases.reverse) {}, ?_, ?_⟩
  · refine Phrase.calm_eventsOf (Phrase.calm_settle ?_) Pairing.calm_empty
    intro phrase member
    exact calm phrase (List.mem_reverse.mp member)
  · change Phrase.eventsOf ((Phrasing.read context (prose.atoms.length + 1) {}
      prose.atoms).finish context.window) {} = _
    rw [read]
    change Phrase.eventsOf [linked] {} = _
    rw [Phrase.eventsOf, Phrase.events, Phrase.eventsOf]
    simp [Pairing.add, Pairing.finish, Element.kind]

end WikiPress.Markdown
