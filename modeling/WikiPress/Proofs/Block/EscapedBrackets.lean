import WikiPress.Proofs.Block.Anchors
import WikiPress.Proofs.Inline.Conservation
import WikiPress.Proofs.Pipe.Separators

/-!
# Escaped brackets

A character is escaped if an odd number of backslashes stands directly before it.  The text of
an escape begins behind its backslash, which belongs to no unit: the backslash is not written,
and an escaped bracket is written like any other literal character.

It is read like one, too.  The rule for wiki links looks for doubled brackets, and not at what
stands before them, so that a link may begin or end at an escaped bracket.  The second bracket
of a pair is never escaped, as a bracket stands before it.
-/

namespace WikiPress

open Markdown (Event)
open SourceUnit (WellFormed Border Around piecesIn runStart runStop)
open WikiLink (Place)

/-! ## Escapes -/

namespace Text

/-- Whether an odd number of backslashes stands directly before a position. -/
def IsEscaped (text : String) (position : Nat) : Prop :=
  Pipe.backslashesBefore text position % 2 = 1

instance (text : String) : DecidablePred (IsEscaped text) :=
  fun position => inferInstanceAs (Decidable (Pipe.backslashesBefore text position % 2 = 1))

/-- Whether a bracket stands at a position, and another one of its kind directly behind it. -/
def IsDoubledBracket (text : String) (position : Nat) : Prop :=
  ∃ bracket ∈ ['[', ']'], byteAt? text position = some bracket ∧
    byteAt? text (position + 1) = some bracket

theorem not_isEscaped_succ {text : String} {position : Nat} {char : Char}
    (found : byteAt? text position = some char) (other : char ≠ '\\') :
    ¬ IsEscaped text (position + 1) := by
  unfold IsEscaped
  rw [Pipe.backslashesBefore, if_neg (by simp [found, other])]
  decide

end Text

open Text (IsEscaped IsDoubledBracket)

/-- An escaped bracket at which literal text begins, behind a backslash that belongs to no
unit. -/
structure SourceUnit.IsEscape (text : String) (units : List SourceUnit) (position : Nat)
    (bracket : Char) : Prop where
  isBracket : bracket = '[' ∨ bracket = ']'
  byte : Text.byteAt? text position = some bracket
  escaped : IsEscaped text position
  begins : ∃ sourceUnit ∈ units, sourceUnit.isLiteral = true ∧ sourceUnit.start = position
  apart : ∀ sourceUnit ∈ units, sourceUnit.stop < position ∨ position ≤ sourceUnit.start

/-- The brackets of a link at a place. -/
def WikiLink.Place.brackets (place : Place) : List Nat :=
  [place.start, place.start + 1, place.close, place.close + 1]

variable {text : String} {pages : PageSet} {units : List SourceUnit} {position : Nat}
  {bracket : Char}

/-- Of the brackets of a link, only the first one of a pair can be escaped. -/
theorem WikiLink.StandsAt.exists_isEscaped_iff {place : Place} {target : WikiLink.Target}
    (stands : WikiLink.StandsAt text place.start place.close target) :
    (∃ position ∈ place.brackets, IsEscaped text position) ↔
      IsEscaped text place.start ∨ IsEscaped text place.close := by
  have opensPlain := Text.not_isEscaped_succ stands.opens.1 (by decide)
  have closesPlain := Text.not_isEscaped_succ stands.closes.1 (by decide)
  simp [Place.brackets, opensPlain, closesPlain]

/-- A link whose doubled brackets are not escaped has no escaped bracket. -/
theorem WikiLink.StandsAt.not_isEscaped {place : Place} {target : WikiLink.Target}
    (stands : WikiLink.StandsAt text place.start place.close target)
    (plain : ∀ position, IsEscaped text position → ¬ IsDoubledBracket text position) :
    ∀ position ∈ place.brackets, ¬ IsEscaped text position := by
  intro position member escaped
  rcases stands.exists_isEscaped_iff.mp ⟨position, member, escaped⟩ with opens | closes
  · exact plain place.start opens ⟨'[', by decide, stands.opens⟩
  · exact plain place.close closes ⟨']', by decide, stands.closes⟩

namespace SourceUnit.IsEscape

/-- The bracket of an escape is a piece of its own, and nothing is written for the backslash. -/
theorem pieces (wellFormed : WellFormed text units)
    (isEscape : IsEscape text units position bracket) :
    Border text units position ∧ Border text units (position + 1) ∧
      piecesIn text units position (position + 1) = [.text bracket.toString] ∧
      piecesIn text units (position - 1) position = [] := by
  have ordered := wellFormed.ordered
  have ascii : bracket.toNat < 128 ∧ bracket.utf8Size = 1 := by
    rcases isEscape.isBracket with rfl | rfl <;> decide
  obtain ⟨before, behind, splits, _⟩ := Text.exists_splitsAt_of_byteAt? isEscape.byte ascii.1
  have charEq : Text.charAt? text position = some bracket := splits.charAt?_eq
  have atPosition := splits.isBoundary
  have atNext := (splits.succ ascii.2).isBoundary
  obtain ⟨sourceUnit, member, literal, startEq⟩ := isEscape.begins
  have nonempty := wellFormed.nonempty sourceUnit member
  have behindPosition : position < sourceUnit.stop := startEq ▸ nonempty
  obtain ⟨current, found⟩ : ∃ current, units.find? (fun other => position < other.stop) =
      some current :=
    Option.isSome_iff_exists.mp
      (List.find?_isSome.mpr ⟨sourceUnit, member, by simpa using behindPosition⟩)
  obtain ⟨passed, ahead, around⟩ := SourceUnit.exists_around found
  -- the unit that begins here is the current one, as no other lies around its start
  obtain rfl : sourceUnit = current := by
    rcases around.cases_mem member with earlier | same | later
    · have stop := around.passed_stop sourceUnit earlier
      omega
    · exact same
    · have start := around.ahead_start ordered sourceUnit later
      have currentStop := around.lt_stop
      omega
  have notLiteral {next : Nat} (other : sourceUnit.isLiteral = false) :
      next ≤ sourceUnit.start ∨ next = sourceUnit.stop := by
    rw [literal] at other
    cases other
  refine ⟨⟨atPosition, ?_⟩, ⟨atNext, ?_⟩, ?_, ?_⟩
  · exact around.clean ordered (Nat.le_refl _) (Nat.le_of_lt behindPosition) notLiteral
  · exact around.clean ordered (Nat.le_succ _) behindPosition notLiteral
  · have written := around.piecesIn_char wellFormed literal (by omega) atPosition charEq
    rwa [ascii.2] at written
  · apply ordered.piecesIn_eq_nil
    intro other otherMember
    rcases isEscape.apart other otherMember with before | behind
    · exact .inr (.inr (by omega))
    · exact .inr (.inl behind)

/-- Where an escape lies in a range, the range is written with the bracket in between. -/
theorem write_piecesIn (wellFormed : WellFormed text units)
    (isEscape : IsEscape text units position bracket) {start stop : Nat}
    (atStart : Text.isBoundary text start = true) (atStop : Text.isBoundary text stop = true)
    (startLe : start ≤ position) (before : position < stop) (output : Output) :
    output.write (piecesIn text units start stop) =
      output.write (piecesIn text units start position ++
        .text bracket.toString :: piecesIn text units (position + 1) stop) := by
  obtain ⟨border, next, written, _⟩ := isEscape.pieces wellFormed
  rw [SourceUnit.write_piecesIn_split wellFormed atStart border atStop startLe
      (Nat.le_of_lt before),
    SourceUnit.write_piecesIn_split wellFormed border.boundary next atStop (Nat.le_succ _) before,
    written, Output.write_append]
  rfl

end SourceUnit.IsEscape

/-! ## Runs -/

/-- Pieces that are written in the same way have the same tokens. -/
theorem Piece.tokens_eq_of_write_eq {first second : List Piece}
    (same : ∀ output : Output, output.write first = output.write second) (pending : String) :
    Piece.tokens pending first = Piece.tokens pending second := by
  have writtenFirst := Output.reverse_flush_write ⟨[], pending⟩ first
  rw [same, Output.reverse_flush_write] at writtenFirst
  simpa using writtenFirst.symm

namespace WikiLink.Place

variable {start stop : Nat} {places before after : List Place}

theorem AreLinks.isLink (links : AreLinks text units stop start places) :
    ∀ place ∈ places, place.IsLink text units := by
  induction links with
  | nil => simp
  | cons _ isLink _ ih => exact List.forall_mem_cons.mpr ⟨isLink, ih⟩

/-- A position outside all links divides them. -/
theorem AreLinks.exists_append (links : AreLinks text units stop start places)
    (startLe : start ≤ position) (inside : position < stop)
    (outside : ∀ place ∈ places, position < place.start ∨ place.stop ≤ position) :
    ∃ before after, places = before ++ after ∧ AreLinks text units position start before ∧
      AreLinks text units stop (position + 1) after := by
  induction links with
  | nil => exact ⟨[], [], rfl, .nil startLe, .nil inside⟩
  | @cons start place places leStart isLink behind ih =>
      obtain ⟨here, outside⟩ := List.forall_mem_cons.mp outside
      rcases here with later | earlier
      · exact ⟨[], place :: places, rfl, .nil startLe, .cons later isLink behind⟩
      · obtain ⟨before, after, rfl, first, rest⟩ := ih earlier outside
        exact ⟨place :: before, after, rfl, .cons leStart isLink first, rest⟩

/-- A link divides the others. -/
theorem AreLinks.of_append_cons {place : Place}
    (links : AreLinks text units stop start (before ++ place :: after)) :
    AreLinks text units place.start start before ∧ AreLinks text units stop place.stop after := by
  induction before generalizing start with
  | nil =>
      cases links with
      | cons leStart _ behind => exact ⟨.nil leStart, behind⟩
  | cons first before ih =>
      cases links with
      | cons leStart isLink behind =>
          obtain ⟨earlier, later⟩ := ih behind
          exact ⟨.cons leStart isLink earlier, later⟩

/-- At a border behind some links and in front of the others, a range is cut into two. -/
theorem write_piecesAround_append (wellFormed : WellFormed text units)
    (atStart : Text.isBoundary text start = true) (border : Border text units position)
    (atStop : Text.isBoundary text stop = true)
    (first : AreLinks text units position start before)
    (rest : AreLinks text units stop position after) (output : Output) :
    output.write (piecesAround text pages units stop start (before ++ after)) =
      (output.write (piecesAround text pages units position start before)).write
        (piecesAround text pages units stop position after) := by
  induction first generalizing output with
  | nil startLe =>
      exact write_piecesAround_split wellFormed atStart border atStop startLe rest output
  | @cons start place places _ isLink _ ih =>
      simp only [List.cons_append, piecesAround, Output.write_append]
      exact ih isLink.atStop.boundary _

/-- A run begins and ends between two characters, and its tokens are those of its units around
links. -/
theorem exists_areLinks_of_run (pages : PageSet) (wellFormed : WellFormed text units) :
    ∃ places, AreLinks text units (runStop units) (runStart units) places ∧
      tokenizeRun text pages [WikiLink.rule] units =
        Piece.tokens "" (piecesAround text pages units (runStop units) (runStart units) places) ∧
      ∀ sourceUnit ∈ units,
        runStart units ≤ sourceUnit.start ∧ sourceUnit.stop ≤ runStop units ∧
        Text.isBoundary text (runStart units) = true ∧
        Text.isBoundary text (runStop units) = true := by
  rcases eq_or_ne units [] with rfl | nonempty
  · exact ⟨[], .nil (Nat.le_refl _), rfl, nofun⟩
  obtain ⟨placed, stretch, within, depth, ofOutput⟩ :=
    exists_tokenizeRun_of_output pages wellFormed nonempty
  obtain ⟨places, links, outputEq⟩ := Tokenizer.exists_piecesAround wellFormed stretch depth
    (runStop units - runStart units) placed ⟨rfl, rfl, rfl, nofun⟩ (Nat.le_refl _) rfl
    stretch.inOrder (by change runStop units ≤ runStart units + _; omega)
  refine ⟨places, links, ofOutput _ _ outputEq, fun sourceUnit member => ?_⟩
  obtain ⟨startLe, leStop⟩ := within sourceUnit member
  exact ⟨startLe, leStop, placed.atPosition.boundary, placed.atLimit.boundary⟩

/-- An escaped bracket outside all links is written as text. -/
theorem exists_tokens_of_isEscape (wellFormed : WellFormed text units)
    (atStart : Text.isBoundary text start = true) (atStop : Text.isBoundary text stop = true)
    (links : AreLinks text units stop start places)
    (isEscape : SourceUnit.IsEscape text units position bracket) (startLe : start ≤ position)
    (inside : position < stop)
    (outside : ∀ place ∈ places, position < place.start ∨ place.stop ≤ position) :
    ∃ before after, places = before ++ after ∧
      Piece.tokens "" (piecesAround text pages units stop start places) =
        Piece.tokens "" (piecesAround text pages units position start before ++
          .text bracket.toString :: piecesAround text pages units stop (position + 1) after) := by
  obtain ⟨border, next, written, _⟩ := isEscape.pieces wellFormed
  obtain ⟨before, after, rfl, first, rest⟩ := links.exists_append startLe inside outside
  refine ⟨before, after, rfl, Piece.tokens_eq_of_write_eq (fun output => ?_) ""⟩
  rw [write_piecesAround_append wellFormed atStart border atStop first
      (rest.of_le (Nat.le_succ _)),
    write_piecesAround_split wellFormed border.boundary next atStop (Nat.le_succ _) rest,
    written, Output.write_append]
  rfl

/-- An escaped bracket in the label of a link is written as text of the label. -/
theorem tokens_of_isEscape_of_label (wellFormed : WellFormed text units)
    (atStart : Text.isBoundary text start = true) (atStop : Text.isBoundary text stop = true)
    {place : Place} (links : AreLinks text units stop start (before ++ place :: after))
    (isEscape : SourceUnit.IsEscape text units position bracket) {label : Span}
    (isLabel : (place.parts text).2 = some label) (startLe : label.start ≤ position)
    (inside : position < label.stop) :
    Piece.tokens "" (piecesAround text pages units stop start (before ++ place :: after)) =
      Piece.tokens "" (piecesAround text pages units place.start start before ++
        .token (openingToken (place.target text) pages) ::
          (piecesIn text units label.start position ++ .text bracket.toString ::
            (piecesIn text units (position + 1) label.stop ++ .token closingToken ::
              piecesAround text pages units stop place.stop after))) := by
  have isLink := links.isLink place (by simp)
  obtain ⟨first, rest⟩ := links.of_append_cons
  obtain ⟨_, _, cut, _⟩ := isLink.label label isLabel
  apply Piece.tokens_eq_of_write_eq
  intro output
  have whole : AreLinks text units stop place.start (place :: after) :=
    .cons (Nat.le_refl _) isLink rest
  rw [write_piecesAround_append wellFormed atStart isLink.atStart atStop first whole]
  have labelled (output : Output) := isEscape.write_piecesIn wellFormed cut.atStart cut.atStop
    startLe inside output
  simp only [piecesAround, pieces, labelPieces, isLabel, wellFormed.ordered.piecesIn_self,
    List.nil_append, Output.write_append, Output.write_cons, labelled]
  rfl

end WikiLink.Place

/-! ## Documents -/

/-- Where the rule for wiki links claims the source of a run, a link stands there, up to where
the cursor is then. -/
theorem WikiLink.exists_standsAt_of_asks {depth inner : Nat} {start asked : InlineState}
    (asks : Tokenizer.Asks [WikiLink.rule] depth start inner WikiLink.rule asked)
    (claims : (WikiLink.rule.parse (Tokenizer.withRules [WikiLink.rule] inner) false
      asked).isMatch = true) :
    ∃ place : Place, place.start = asked.position ∧
      place.stop = (WikiLink.rule.parse (Tokenizer.withRules [WikiLink.rule] inner) false
        asked).state.position ∧
      WikiLink.StandsAt start.source place.start place.close (place.target start.source) := by
  have adds (depth : Nat) : ∀ rule ∈ [WikiLink.rule], rule = WikiLink.rule ∨
      rule.AddsTokens (Tokenizer.withRules [WikiLink.rule] depth) :=
    fun _ member => .inl (List.mem_singleton.mp member)
  have ahead := Tokenizer.skipsAhead_withRules adds inner
  obtain ⟨state, visited, inside, asksAt⟩ := asks
  have reached :=
    (asksAt.continues (Tokenizer.declinesInPlace_of_addsTokens ahead (adds inner)) inside).1
  have sourceEq := reached.source_eq.trans (visited.sameUnits adds).1
  rcases WikiLink.parse_cases (Tokenizer.withRules [WikiLink.rule] inner) false asked with
    refused | ⟨_, _, begins, ⟨back, _, parsed⟩ | ⟨target, label, stop, back, found, parsed⟩⟩
  · rw [refused] at claims
    cases claims
  · rw [parsed] at claims
    cases claims
  · obtain ⟨close, contentLe, _, firstBracket, secondBracket, linkTo⟩ :=
      WikiLink.exists_linkTo?_of_read ahead found
    obtain ⟨nonempty, -, -, rfl⟩ := WikiLink.of_linkTo? linkTo
    have positionEq := (WikiLink.continues_read ahead found).2
    unfold WikiLink.mayBegin at begins
    simp only [Bool.and_eq_true, decide_eq_true_eq, beq_iff_eq] at begins
    rw [positionEq] at nonempty
    rw [parsed]
    refine ⟨⟨asked.position, close⟩, rfl, rfl, ?_⟩
    rw [← sourceEq]
    exact ⟨⟨begins.1.2, begins.2⟩, ⟨firstBracket, secondBracket⟩,
      Nat.lt_of_le_of_ne contentLe (Ne.symm nonempty), _, rfl, rfl⟩

open Tokenizer (withRules)

/-- Of the brackets that a wiki link of a document consumes, only the first one of a pair can be
escaped; none is escaped where no escaped bracket is doubled.  Around the links of a run, and in
their labels, an escaped bracket comes out as text, and its backslash does not. -/
theorem Engine.escaped_brackets_of_tokenize (pages : PageSet) (text : String) {outer : Token}
    (member : outer ∈ Engine.wiki.tokenize pages text) {children : List Token}
    (childrenEq : outer.children = some children) :
    ∃ run ∈ Event.runs (Event.ofText text),
      let units := SourceUnit.ofEvents text run.events
      children = tokenizeRun text pages [WikiLink.rule] units ∧
      (∀ inner asked, Tokenizer.Asks [WikiLink.rule] (runStop units - runStart units + 1)
          (InlineState.ofRun text pages units) inner WikiLink.rule asked →
        (WikiLink.rule.parse (withRules [WikiLink.rule] inner) false asked).isMatch = true →
        ∃ place : Place, place.start = asked.position ∧
          place.stop = (WikiLink.rule.parse (withRules [WikiLink.rule] inner) false
            asked).state.position ∧
          ((∃ position ∈ place.brackets, IsEscaped text position) ↔
            IsEscaped text place.start ∨ IsEscaped text place.close) ∧
          ((∀ position, IsEscaped text position → ¬ IsDoubledBracket text position) →
            ∀ position ∈ place.brackets, ¬ IsEscaped text position)) ∧
      (WellFormed text units →
        ∃ places, Place.AreLinks text units (runStop units) (runStart units) places ∧
          children = Piece.tokens ""
            (Place.piecesAround text pages units (runStop units) (runStart units) places) ∧
          (∀ position bracket, SourceUnit.IsEscape text units position bracket →
            (∀ place ∈ places, position < place.start ∨ place.stop ≤ position) →
            piecesIn text units (position - 1) position = [] ∧
            ∃ before after, places = before ++ after ∧
              children = Piece.tokens ""
                (Place.piecesAround text pages units position (runStart units) before ++
                  .text bracket.toString ::
                    Place.piecesAround text pages units (runStop units) (position + 1) after)) ∧
          (∀ before place after label, places = before ++ place :: after →
            (place.parts text).2 = some label →
            ∀ position bracket, SourceUnit.IsEscape text units position bracket →
              label.start ≤ position → position < label.stop →
              piecesIn text units (position - 1) position = [] ∧
              children = Piece.tokens ""
                (Place.piecesAround text pages units place.start (runStart units) before ++
                  .token (WikiLink.openingToken (place.target text) pages) ::
                    (piecesIn text units label.start position ++ .text bracket.toString ::
                      (piecesIn text units (position + 1) label.stop ++
                        .token WikiLink.closingToken ::
                          Place.piecesAround text pages units (runStop units) place.stop
                            after))))) := by
  obtain ⟨run, runMember, rfl⟩ := exists_mem_runs_of_tokenize member childrenEq
  refine ⟨run, runMember, rfl, ?links, ?texts⟩
  case links =>
    intro inner asked asks claims
    obtain ⟨place, startEq, stopEq, stands⟩ := WikiLink.exists_standsAt_of_asks asks claims
    exact ⟨place, startEq, stopEq, stands.exists_isEscaped_iff, stands.not_isEscaped⟩
  case texts =>
    intro wellFormed
    obtain ⟨places, links, tokensEq, within⟩ := Place.exists_areLinks_of_run pages wellFormed
    refine ⟨places, links, tokensEq, ?around, ?label⟩
    case around =>
      intro position bracket isEscape outside
      obtain ⟨sourceUnit, unitMember, _, rfl⟩ := id isEscape.begins
      obtain ⟨startLe, leStop, atStart, atStop⟩ := within sourceUnit unitMember
      have nonempty := wellFormed.nonempty sourceUnit unitMember
      obtain ⟨before, after, placesEq, written⟩ := Place.exists_tokens_of_isEscape wellFormed
        atStart atStop links isEscape startLe (by omega) outside
      exact ⟨(isEscape.pieces wellFormed).2.2.2, before, after, placesEq, tokensEq.trans written⟩
    case label =>
      rintro before place after label rfl isLabel position bracket isEscape startLe inside
      obtain ⟨sourceUnit, unitMember, _⟩ := isEscape.begins
      obtain ⟨_, _, atStart, atStop⟩ := within sourceUnit unitMember
      exact ⟨(isEscape.pieces wellFormed).2.2.2, tokensEq.trans
        (Place.tokens_of_isEscape_of_label wellFormed atStart atStop links isEscape isLabel
          startLe inside)⟩

/-- An escaped bracket in front of a wiki link, and one in its label. -/
def escapedBrackets : String :=
  "\\[a] [[b|x\\]y]]"

theorem wellFormed_escapedBrackets : ∀ run ∈ Event.runs (Event.ofText escapedBrackets),
    WellFormed escapedBrackets (SourceUnit.ofEvents escapedBrackets run.events) := by
  decide +kernel

theorem Engine.escaped_brackets_of_tokenize_plainAndInLabel :
    ∃ outer ∈ Engine.wiki.tokenize ⟨["b"]⟩ escapedBrackets, ∃ children,
      outer.children = some children ∧
      children.map (fun token => (token.kind, token.content)) =
        [(.text, "[a] "), (.linkOpen, ""), (.text, "x]y"), (.linkClose, "")] ∧
      ∃ run ∈ Event.runs (Event.ofText escapedBrackets), ∃ places,
        children = Piece.tokens "" (Place.piecesAround escapedBrackets ⟨["b"]⟩
          (SourceUnit.ofEvents escapedBrackets run.events)
          (runStop (SourceUnit.ofEvents escapedBrackets run.events))
          (runStart (SourceUnit.ofEvents escapedBrackets run.events)) places) := by
  have written : ((Engine.wiki.tokenize ⟨["b"]⟩ escapedBrackets)[1]?.bind Token.children).map
      (·.map fun token => (token.kind, token.content)) =
        some [(.text, "[a] "), (.linkOpen, ""), (.text, "x]y"), (.linkClose, "")] := by
    decide +kernel
  obtain ⟨children, found, contents⟩ := Option.map_eq_some_iff.mp written
  obtain ⟨outer, atOne, childrenEq⟩ := Option.bind_eq_some_iff.mp found
  have member := List.mem_of_getElem? atOne
  obtain ⟨run, runMember, _, _, texts⟩ :=
    Engine.escaped_brackets_of_tokenize ⟨["b"]⟩ escapedBrackets member childrenEq
  obtain ⟨places, _, tokensEq, _⟩ := texts (wellFormed_escapedBrackets run runMember)
  exact ⟨outer, member, children, childrenEq, contents, run, runMember, places, tokensEq⟩

/-- The first bracket of a doubled one is escaped, and is consumed as that of a link: there is
nothing else in the document, and the brackets of a link stand nowhere else. -/
theorem Engine.escaped_brackets_openLink :
    IsEscaped "\\[[a]]" 1 ∧
    (∀ start close target, WikiLink.StandsAt "\\[[a]]" start close target → start = 1) ∧
    ∃ outer ∈ Engine.wiki.tokenize ⟨["a"]⟩ "\\[[a]]", ∃ children, outer.children = some children ∧
      children.map (fun token => (token.kind, token.attributes, token.content)) =
        [(.linkOpen, [("href", "a.html"), ("class", "wiki-link")], ""), (.text, [], "a"),
          (.linkClose, [], "")] := by
  refine ⟨by decide, ?_, ?_⟩
  · intro start close target stands
    have everywhere : ∀ start < 6, Text.byteAt? "\\[[a]]" start = some '[' ∧
        Text.byteAt? "\\[[a]]" (start + 1) = some '[' → start = 1 := by
      decide +kernel
    have inside := Text.le_utf8ByteSize_of_isBoundary
      (WikiLink.boundaries_of_byteAt? stands.opens.1 (by decide)).2
    exact everywhere start inside stands.opens
  · have written : ((Engine.wiki.tokenize ⟨["a"]⟩ "\\[[a]]")[1]?.bind Token.children).map
        (·.map fun token => (token.kind, token.attributes, token.content)) =
          some [(.linkOpen, [("href", "a.html"), ("class", "wiki-link")], ""), (.text, [], "a"),
            (.linkClose, [], "")] := by
      decide +kernel
    obtain ⟨children, found, contents⟩ := Option.map_eq_some_iff.mp written
    obtain ⟨outer, atOne, childrenEq⟩ := Option.bind_eq_some_iff.mp found
    exact ⟨outer, List.mem_of_getElem? atOne, children, childrenEq, contents⟩

end WikiPress
