import WikiPress.Markdown.Atom
import WikiPress.Proofs.Markdown.Windows

/-!
# Atoms of a stretch of a line

A line is read byte by byte, and what an atom becomes depends on its first byte.  In a
stretch without backslashes and line ends every byte that has a meaning begins an atom, and
none of these atoms reaches beyond the closing bracket or the line end behind the stretch.
-/

namespace WikiPress.Markdown

open Text

/-- The kinds of atoms that begin with a byte, unless a backslash escapes it. -/
inductive Atom.Kind.Begins (window : Window) (offset : Nat) : Char → Atom.Kind → Prop where
  | run (mark : Char) (opens closes : Bool) : Begins window offset mark (.run mark opens closes)
  | ticks : Begins window offset '\x60' (.ticks false)
  | angle : Begins window offset '<' .angle
  | imageOpen (bracket : window.has (offset + 1) '[' = true) :
      Begins window offset '!' .imageOpen
  | linkOpen : Begins window offset '[' .linkOpen
  | linkClose : Begins window offset ']' (.linkClose true)
  | entity (value : String) : Begins window offset '&' (.entity value)

/-- Atoms that have been read behind others, the last first, all of which are allowed. -/
def Atom.Behind (allowed : Atom → Prop) (base atoms : List Atom) : Prop :=
  ∃ inner, atoms = inner ++ base ∧ ∀ atom ∈ inner, allowed atom

section Behind

variable {allowed : Atom → Prop} {base atoms : List Atom}

theorem Atom.Behind.cons (behind : Atom.Behind allowed base atoms) {atom : Atom}
    (isAllowed : allowed atom) : Atom.Behind allowed base (atom :: atoms) := by
  obtain ⟨inner, rfl, innerAllowed⟩ := behind
  exact ⟨atom :: inner, rfl, List.forall_mem_cons.mpr ⟨isAllowed, innerAllowed⟩⟩

/-- Plain text becomes an atom, or prolongs the last one; it does not touch an atom that is
no text. -/
theorem Atom.Behind.addText (behind : Atom.Behind allowed base atoms)
    (apart : ∀ atom ∈ base.head?, atom.kind ≠ .text) {start stop : Nat}
    (texts : ∀ first, allowed ⟨first, stop, .text⟩) :
    Atom.Behind allowed base (Atom.addText atoms start stop) := by
  unfold Atom.addText
  split
  · split
    · rename_i first last rest
      split
      · obtain ⟨inner, atomsEq, innerAllowed⟩ := behind
        cases inner with
        | nil =>
            rw [List.nil_append] at atomsEq
            exact absurd rfl (apart ⟨first, last, .text⟩ (by rw [← atomsEq]; rfl))
        | cons text inner =>
            obtain ⟨_, rfl⟩ := List.cons.inj atomsEq
            exact ⟨_ :: inner, rfl, List.forall_mem_cons.mpr
              ⟨texts first, (List.forall_mem_cons.mp innerAllowed).2⟩⟩
      · exact behind.cons (texts start)
    · exact behind.cons (texts start)
  · exact behind

end Behind

/-- A byte behind which no atom reaches that begins in front of it. -/
def isBarrier (char : Char) : Bool :=
  char == ']' || char == '\n'

section Barriers

variable {window : Window} {limit : Nat} {barrier : Char}
  (last : window.byte? limit = some barrier) (isLast : isBarrier barrier = true)

include last isLast

theorem holds_barrier (test : Char → Bool) (atBracket : test ']' = false)
    (atNewline : test '\n' = false) : window.holds limit test = false := by
  rw [Window.holds_of_byte? last]
  unfold isBarrier at isLast
  rcases Bool.or_eq_true_iff.mp isLast with bracket | newline
  · rw [eq_of_beq bracket, atBracket]
  · rw [eq_of_beq newline, atNewline]

/-- A byte in front of the barrier or at it that passes a test which the barrier fails. -/
theorem succ_le_of_holds {offset : Nat} (offsetLe : offset ≤ limit) {test : Char → Bool}
    (holds : window.holds offset test = true) (atBracket : test ']' = false)
    (atNewline : test '\n' = false) : offset + 1 ≤ limit := by
  refine Nat.lt_of_le_of_ne offsetLe ?_
  rintro rfl
  rw [holds_barrier last isLast test atBracket atNewline] at holds
  cases holds

theorem succ_le_of_has {offset : Nat} (offsetLe : offset ≤ limit) {char : Char}
    (has : window.has offset char = true) (noBracket : char ≠ ']') (noNewline : char ≠ '\n') :
    offset + 1 ≤ limit := by
  have holds : window.holds offset (· == char) = true := by
    rw [Window.holds_of_byte? (Window.byte?_of_has has)]
    exact beq_self_eq_true char
  exact succ_le_of_holds last isLast offsetLe holds (beq_false_of_ne noBracket.symm)
    (beq_false_of_ne noNewline.symm)

theorem add_repeats_le {offset : Nat} (offsetLe : offset ≤ limit) {char : Char}
    (noBracket : char ≠ ']') (noNewline : char ≠ '\n') :
    offset + window.repeats char offset ≤ limit := by
  have reached := Window.skipWhile_le offsetLe
    (holds_barrier last isLast (· == char) (beq_false_of_ne noBracket.symm)
      (beq_false_of_ne noNewline.symm))
  have forward := window.le_skipWhile (· == char) offset
  unfold Window.repeats
  omega

theorem readNumber_between (base digits offset value : Nat) (offsetLe : offset ≤ limit) :
    offset ≤ (readNumber window base digits offset value).2 ∧
      (readNumber window base digits offset value).2 ≤ limit := by
  induction digits generalizing offset value with
  | zero => exact ⟨Nat.le_refl offset, offsetLe⟩
  | succ digits ih =>
      unfold readNumber
      simp only
      split
      · rename_i digit isDigit
        have holds : window.holds offset (fun char => (hexValue? char).isSome) = true := by
          obtain ⟨isHex, _⟩ := Option.filter_eq_some_iff.mp isDigit
          obtain ⟨char, found, value⟩ := Option.bind_eq_some_iff.mp isHex
          rw [Window.holds_of_byte? found, value]
          rfl
        have next := succ_le_of_holds last isLast offsetLe holds rfl rfl
        obtain ⟨forward, reached⟩ := ih (offset + 1) (base * value + digit) next
        exact ⟨by omega, reached⟩
      · exact ⟨Nat.le_refl offset, offsetLe⟩

/-- A character reference ends in front of the barrier. -/
theorem entity?_between {offset stop : Nat} {value : String} (inside : offset < limit)
    (isEntity : entity? window offset = some (stop, value)) : offset < stop ∧ stop ≤ limit := by
  have closed {digitsStop : Nat} (between : offset < digitsStop ∧ digitsStop ≤ limit)
      (semicolon : window.has digitsStop ';' = true) :
      offset < digitsStop + 1 ∧ digitsStop + 1 ≤ limit :=
    ⟨by omega, succ_le_of_has last isLast between.2 semicolon (by decide) (by decide)⟩
  unfold entity? at isEntity
  extract_lets isHex start wordStop at isEntity
  split at isEntity
  · rename_i isNumber
    have behindSign := succ_le_of_has last isLast inside isNumber (by decide) (by decide)
    have startBetween : offset < start ∧ start ≤ limit := by
      simp only [start]
      split
      · rename_i holdsX
        have behindX := succ_le_of_holds last isLast behindSign holdsX (by decide) (by decide)
        omega
      · omega
    have numbered (base count : Nat)
        (isEntity : (if (readNumber window base count start).2 != start &&
              window.has (readNumber window base count start).2 ';' then
            (characterOfNumber? (readNumber window base count start).1).map fun char =>
              ((readNumber window base count start).2 + 1, char.toString)
          else none) = some (stop, value)) : offset < stop ∧ stop ≤ limit := by
      split at isEntity
      · rename_i semicolon
        obtain ⟨char, _, stopEq⟩ := Option.map_eq_some_iff.mp isEntity
        cases stopEq
        have between := readNumber_between last isLast base count start 0 startBetween.2
        exact closed (by omega) (Bool.and_eq_true_iff.mp semicolon).2
      · cases isEntity
    by_cases hex : isHex = true
    · rw [if_pos hex] at isEntity
      exact numbered 16 6 isEntity
    · rw [if_neg hex] at isEntity
      exact numbered 10 7 isEntity
  · split at isEntity
    · rename_i semicolon
      obtain ⟨text, _, stopEq⟩ := Option.map_eq_some_iff.mp isEntity
      cases stopEq
      have forward := window.le_skipWhile isAsciiAlphanumeric (offset + 1)
      have reached := Window.skipWhile_le inside
        (holds_barrier last isLast isAsciiAlphanumeric (by decide) (by decide))
      exact closed ⟨forward, reached⟩ semicolon
    · cases isEntity

end Barriers

namespace LineScan

variable {window : Window} {limit : Nat} {barrier : Char}

/-- A step passes bytes of a stretch, or adds an atom that begins with the first of them. -/
theorem exists_step (last : window.byte? limit = some barrier) (isLast : isBarrier barrier = true)
    (scan : LineScan) (role : LineRole) {offset : Nat} (inside : offset < limit) {char : Char}
    (found : window.byte? offset = some char) (noEscape : char ≠ '\\') :
    ∃ next, offset < next ∧ next ≤ limit ∧
      ((∃ pipes lastPipe, scan.step window role offset char =
          ({ scan with pipes, lastPipe }, next)) ∨
        ∃ kind, Atom.Kind.Begins window offset char kind ∧
          scan.step window role offset char = (scan.add offset next kind, next)) := by
  have isThere : window.holds offset (· == char) = true := by
    rw [Window.holds_of_byte? found]
    exact beq_self_eq_true char
  have passed {result : LineScan × Nat} (eq : result = (scan, offset + 1)) :
      ∃ next, offset < next ∧ next ≤ limit ∧
        ((∃ pipes lastPipe, result = ({ scan with pipes, lastPipe }, next)) ∨
          ∃ kind, Atom.Kind.Begins window offset char kind ∧
            result = (scan.add offset next kind, next)) :=
    ⟨offset + 1, Nat.lt_succ_self offset, inside, .inl ⟨scan.pipes, scan.lastPipe, eq⟩⟩
  have repeated (noBracket : char ≠ ']') (noNewline : char ≠ '\n') :
      offset < offset + window.repeats char offset ∧
        offset + window.repeats char offset ≤ limit := by
    have forward : offset < window.skipWhile (· == char) offset :=
      Window.lt_skipWhile isThere
    refine ⟨?_, add_repeats_le last isLast (Nat.le_of_lt inside) noBracket noNewline⟩
    unfold Window.repeats
    omega
  unfold step
  simp only [if_neg noEscape]
  split
  · rename_i isMark
    obtain ⟨forward, reached⟩ := repeated (by rintro rfl; simp at isMark)
      (by rintro rfl; simp at isMark)
    refine ⟨_, forward, reached, ?_⟩
    split
    · exact .inr ⟨_, .run _ _ _, rfl⟩
    · exact .inl ⟨scan.pipes, scan.lastPipe, rfl⟩
  · split
    · rename_i isTick
      subst isTick
      obtain ⟨forward, reached⟩ := repeated (by decide) (by decide)
      exact ⟨_, forward, reached, .inr ⟨_, .ticks, rfl⟩⟩
    · split
      · rename_i isAngle
        subst isAngle
        split
        · exact passed rfl
        · exact ⟨_, Nat.lt_succ_self offset, inside, .inr ⟨_, .angle, rfl⟩⟩
      · split
        · rename_i isBang
          subst isBang
          split
          · rename_i bracket
            exact ⟨offset + 2, by omega,
              succ_le_of_has last isLast inside bracket (by decide) (by decide),
              .inr ⟨_, .imageOpen bracket, rfl⟩⟩
          · exact passed rfl
        · split
          · rename_i isOpen
            subst isOpen
            exact ⟨_, Nat.lt_succ_self offset, inside, .inr ⟨_, .linkOpen, rfl⟩⟩
          · split
            · rename_i isClose
              subst isClose
              exact ⟨_, Nat.lt_succ_self offset, inside, .inr ⟨_, .linkClose, rfl⟩⟩
            · split
              · rename_i isAmpersand
                subst isAmpersand
                split
                · rename_i stop value isEntity
                  obtain ⟨forward, reached⟩ := entity?_between last isLast inside isEntity
                  exact ⟨stop, forward, reached, .inr ⟨_, .entity value, rfl⟩⟩
                · exact passed rfl
              · split
                · exact ⟨_, Nat.lt_succ_self offset, inside, .inl ⟨_, _, rfl⟩⟩
                · exact passed rfl

/-- Reading goes on behind a byte that ends no line. -/
theorem read_succ {offset : Nat} {char : Char} (found : window.byte? offset = some char)
    (noEnd : isLineEnd char = false) (containers : List Container) {role : LineRole}
    (outside : role ≠ .cell) (start fuel : Nat) (scan : LineScan) :
    read window containers role start (fuel + 1) scan offset =
      read window containers role start fuel (scan.step window role offset char).1
        (scan.step window role offset char).2 := by
  rw [read]
  simp only [found, noEnd, Bool.false_eq_true, if_false, outside, decide_false, Bool.false_and]

/-- Reading a stretch only adds atoms that begin in it. -/
theorem exists_read (last : window.byte? limit = some barrier) (isLast : isBarrier barrier = true)
    (containers : List Container) {role : LineRole} (outside : role ≠ .cell) (start : Nat)
    {allowed : Atom → Prop} {base : List Atom} {scan : LineScan}
    (behind : Atom.Behind allowed base scan.atoms)
    (apart : ∀ atom ∈ base.head?, atom.kind ≠ .text)
    (texts : ∀ start stop, stop ≤ limit → allowed ⟨start, stop, .text⟩) {first : Nat}
    (plain : ∀ offset, first ≤ offset → offset < limit → ∃ char,
      window.byte? offset = some char ∧ char ≠ '\\' ∧ isLineEnd char = false ∧
      ∀ stop kind, stop ≤ limit → Atom.Kind.Begins window offset char kind →
        allowed ⟨offset, stop, kind⟩)
    {fuel offset : Nat} (firstLe : first ≤ offset) (inOrder : offset ≤ limit)
    (enough : window.stop - offset < fuel) :
    ∃ rest reached, window.stop - limit < rest ∧ Atom.Behind allowed base reached.atoms ∧
      read window containers role start fuel scan offset =
        read window containers role start rest reached limit := by
  induction fuel generalizing offset scan with
  | zero => exact absurd enough (Nat.not_lt_zero _)
  | succ fuel ih =>
      rcases Nat.eq_or_lt_of_le inOrder with atLimit | inside
      · subst atLimit
        exact ⟨fuel + 1, scan, enough, behind, rfl⟩
      · obtain ⟨char, found, noEscape, noEnd, begins⟩ := plain offset firstLe inside
        obtain ⟨next, forward, reaches, stepped⟩ :=
          exists_step last isLast scan role inside found noEscape
        have inWindow := Window.lt_stop_of_byte? found
        rw [read_succ found noEnd containers outside]
        rcases stepped with ⟨pipes, lastPipe, stepEq⟩ | ⟨kind, kindBegins, stepEq⟩
        · rw [stepEq]
          refine ih ?_ (by omega) reaches (by omega)
          exact behind
        · rw [stepEq]
          refine ih ?_ (by omega) reaches (by omega)
          exact (behind.addText apart fun first => texts first offset (Nat.le_of_lt inside)).cons
            (begins next kind reaches kindBegins)

end LineScan

end WikiPress.Markdown
