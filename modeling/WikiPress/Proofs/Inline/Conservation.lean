import WikiPress.Proofs.Inline.ExactLevel
import WikiPress.Proofs.Inline.Pieces

/-!
# What becomes of a run

The tokens of a run are those of its units, each of them once and in order, but for the wiki
links: these stand at places that do not overlap, and each is written as its opening token, the
pieces of its label, and its closing token.  In a label, where a link is open, no other wiki link
is read, so that it is written as it stands.
-/

namespace WikiPress

open SourceUnit (WellFormed Border Stretch piecesIn)
open InlineState (Placed CountsFrom)

/-! ## Places of links -/

namespace WikiLink

namespace Place

/-- What the link reads: its label, or its destination. -/
def labelPieces (source : String) (units : List SourceUnit) (place : Place) : List Piece :=
  match (place.parts source).2 with
  | some label => piecesIn source units label.start label.stop
  | none => [.text (place.target source).destination]

/-- What the link is written as. -/
def pieces (source : String) (pages : PageSet) (units : List SourceUnit) (place : Place) :
    List Piece :=
  .token (openingToken (place.target source) pages) ::
    (place.labelPieces source units ++ [.token closingToken])

/-- A link stands at a place.  Neither the link nor its label cuts a unit but literal text, and
each of them closes the elements that it opens. -/
structure IsLink (source : String) (units : List SourceUnit) (place : Place) : Prop where
  stands : StandsAt source place.start place.close (place.target source)
  atStart : Border source units place.start
  atStop : Border source units place.stop
  whole : Stretch units place.start place.stop
  label : ∀ range ∈ (place.parts source).2,
    place.start + 2 ≤ range.start ∧ range.stop ≤ place.close ∧
      Cut source range.start range.stop ∧ Stretch units range.start range.stop

/-- Places of links in a range, one behind the other. -/
inductive AreLinks (source : String) (units : List SourceUnit) (stop : Nat) :
    Nat → List Place → Prop where
  | nil {start : Nat} (inOrder : start ≤ stop) : AreLinks source units stop start []
  | cons {start : Nat} {place : Place} {places : List Place} (startLe : start ≤ place.start)
      (isLink : place.IsLink source units)
      (behind : AreLinks source units stop place.stop places) :
      AreLinks source units stop start (place :: places)

/-- What a range is written as with links at places: the units around them, and the links. -/
def piecesAround (source : String) (pages : PageSet) (units : List SourceUnit) (stop : Nat) :
    Nat → List Place → List Piece
  | start, [] => piecesIn source units start stop
  | start, place :: places =>
    piecesIn source units start place.start ++
      (place.pieces source pages units ++
        piecesAround source pages units stop place.stop places)

variable {source : String} {pages : PageSet} {units : List SourceUnit} {start middle stop : Nat}
  {places : List Place}

theorem IsLink.start_lt_stop {place : Place} (isLink : place.IsLink source units) :
    place.start < place.stop := by
  have inside := isLink.stands.nonempty
  unfold stop
  omega

theorem AreLinks.of_le (links : AreLinks source units stop middle places)
    (startLe : start ≤ middle) : AreLinks source units stop start places := by
  cases links with
  | nil inOrder => exact .nil (Nat.le_trans startLe inOrder)
  | cons leStart isLink behind => exact .cons (Nat.le_trans startLe leStart) isLink behind

/-- Pieces before all links can be put in front. -/
theorem write_piecesAround_split (wellFormed : WellFormed source units)
    (atStart : Text.isBoundary source start = true) (border : Border source units middle)
    (atStop : Text.isBoundary source stop = true) (startLe : start ≤ middle)
    (links : AreLinks source units stop middle places) (output : Output) :
    output.write (piecesAround source pages units stop start places) =
      (output.write (piecesIn source units start middle)).write
        (piecesAround source pages units stop middle places) := by
  cases links with
  | nil inOrder =>
      exact SourceUnit.write_piecesIn_split wellFormed atStart border atStop startLe inOrder output
  | cons leStart isLink _ =>
      simp only [piecesAround, Output.write_append]
      rw [SourceUnit.write_piecesIn_split wellFormed atStart border isLink.atStart.boundary startLe
        leStart]

end Place

variable {source : String} {units : List SourceUnit} {inner : Tokenizer} {state back : InlineState}
  {target : Target} {label : Option Span} {stop origin limit : Nat}

/-- Where a link is read, one stands. -/
theorem exists_isLink_of_read (wellFormed : WellFormed source units)
    (stretch : Stretch units origin limit) (placed : Placed source units state)
    (originLe : origin ≤ state.position) (limitLe : state.limit ≤ limit)
    (ahead : inner.SkipsAhead) (begins : mayBegin state = true)
    (found : read inner state = (some (target, label, stop), back)) :
    ∃ place : Place, place.start = state.position ∧ place.stop = stop ∧
      place.target source = target ∧ (place.parts source).2 = label ∧
      place.IsLink source units := by
  obtain ⟨continues, positionEq⟩ := continues_read ahead found
  obtain ⟨close, contentLe, _, firstBracket, secondBracket, linkTo⟩ :=
    exists_linkTo?_of_read ahead found
  obtain ⟨nonempty, rfl, rfl, rfl⟩ := of_linkTo? linkTo
  obtain ⟨⟨whole, _⟩, stretches⟩ := stretch_of_read wellFormed stretch placed.units_eq originLe
    limitLe ahead begins found
  have sourceEq : back.source = source := continues.source_eq.trans placed.source_eq
  rw [positionEq] at nonempty
  rw [sourceEq, positionEq] at stretches ⊢
  rw [placed.source_eq] at firstBracket secondBracket
  have content : Cut source (state.position + 2) close := by
    refine ⟨contentLe, ?_, (boundaries_of_byteAt? firstBracket (by decide)).1⟩
    exact placed.source_eq ▸ (boundaries_of_byteAt? (of_mayBegin begins).2 (by decide)).2
  have inside : state.position + 2 < close := by omega
  unfold mayBegin at begins
  simp only [Bool.and_eq_true, decide_eq_true_eq, beq_iff_eq, placed.source_eq] at begins
  refine ⟨⟨state.position, close⟩, rfl, rfl, rfl, rfl, ?_⟩
  refine ⟨⟨⟨begins.1.2, begins.2⟩, ⟨firstBracket, secondBracket⟩, inside, _, rfl, rfl⟩,
    placed.atPosition, ⟨(boundaries_of_byteAt? secondBracket (by decide)).2, whole.atLimit⟩, whole,
    ?_⟩
  intro range member
  obtain ⟨startLe, cut, leClose⟩ := cut_label content (Prod.ext rfl member)
  exact ⟨startLe, leClose, cut, stretches range member⟩

end WikiLink

open InlineState
open Tokenizer (withRules)

/-! ## What is written for a link -/

namespace WikiLink

variable {source : String} {units : List SourceUnit} {state : InlineState} {target : Target}
  {origin limit : Nat}

/-- A label is written as it stands. -/
theorem output_label (wellFormed : WellFormed source units) (placed : Placed source units state)
    {range : Span} (cut : Cut source range.start range.stop)
    (stretch : Stretch units range.start range.stop) (target : Target) (depth : Nat) :
    ((withRules [rule] (depth + 1)).tokenize (insideLabel state target range)).output =
      ((insideLabel state target range).output.write
        (piecesIn source units range.start range.stop)).flush := by
  let inside := insideLabel state target range
  have sourceEq : inside.source = source :=
    (insideLabel_source state target range).trans placed.source_eq
  have unitsEq : inside.units = units :=
    (insideLabel_units state target range).trans placed.units_eq
  have isOpen : 0 < inside.linkLevel := by
    rw [insideLabel_linkLevel]
    exact Nat.succ_pos _
  have insidePlaced : Placed source units inside :=
    ⟨sourceEq, unitsEq, ⟨cut.atStart, stretch.atOrigin⟩, ⟨cut.atStop, stretch.atLimit⟩⟩
  have counts : CountsFrom source units range.start range.stop inside.linkLevel inside :=
    countsFrom_self wellFormed sourceEq unitsEq stretch
  exact Tokenizer.output_tokenizeWith_of_refused wellFormed
    (CountsFrom source units range.start range.stop inside.linkLevel)
    (fun state counts _ => Tokenizer.tryAll_eq_of_refused (by simp) _
      (.inl (counts.level_eq ▸ Nat.lt_of_lt_of_le isOpen (Nat.le_add_right _ _))))
    (fun state counts before => counts.step wellFormed stretch (counts.limit_eq ▸ before))
    _ counts insidePlaced stretch.inOrder (by omega)

/-- A link is written as its pieces. -/
theorem output_write (wellFormed : WellFormed source units) (placed : Placed source units state)
    {place : Place} (isLink : place.IsLink source units) (depth : Nat) (stop : Nat) :
    (write (withRules [rule] (depth + 1)) state (place.target source) (place.parts source).2
        stop).output =
      state.output.write (place.pieces source state.pages units) := by
  have opened := output_push state (openingToken (place.target source) state.pages)
  rw [Place.pieces, Output.write_cons, Output.write_append, Place.labelPieces, ← opened]
  cases parts : (place.parts source).2 with
  | none =>
      exact output_push ((state.push (openingToken (place.target source) state.pages)).pushText
        (place.target source).destination) closingToken
  | some range =>
      obtain ⟨_, _, cut, stretch⟩ := isLink.label range parts
      have labelled := output_label wellFormed placed cut stretch (place.target source) depth
      refine (output_push (writeLabel (withRules [rule] (depth + 1))
        (state.push (openingToken (place.target source) state.pages)) range) closingToken).trans ?_
      change ((withRules [rule] (depth + 1)).tokenize
        (insideLabel state (place.target source) range)).output.add _ = _
      rw [labelled, Output.add_flush]
      rfl

/-- Behind a link that is written, the cursor is at a border, and the limit is what it was. -/
theorem placed_write (placed : Placed source units state) {place : Place}
    (isLink : place.IsLink source units) (target : Target) (label : Option Span) (depth : Nat) :
    Placed source units (write (withRules [rule] depth) state target label place.stop) ∧
      (write (withRules [rule] depth) state target label place.stop).limit = state.limit := by
  have keeps := Tokenizer.extends_withRules
    (fun _ _ member => .inl (List.mem_singleton.mp member)) depth
  have sameRun := (extends_write keeps state target label place.stop).toSameRun
  exact ⟨⟨sameRun.source_eq.trans placed.source_eq, sameRun.units_eq.trans placed.units_eq,
    isLink.atStop, sameRun.limit_eq ▸ placed.atLimit⟩, sameRun.limit_eq⟩

end WikiLink

/-! ## Runs -/

namespace Tokenizer

open WikiLink (Place)

variable {source : String} {pages : PageSet} {units : List SourceUnit} {origin limit : Nat}

/-- With a round for every byte that is left, what is written are the units that are left, around
links. -/
theorem exists_piecesAround (wellFormed : WellFormed source units)
    (stretch : Stretch units origin limit) (depth rounds : Nat) {state : InlineState}
    (placed : Placed source units state) (draws : Draws source pages units state)
    (originLe : origin ≤ state.position) (limitEq : state.limit = limit)
    (inOrder : state.position ≤ limit) (enough : limit ≤ state.position + rounds) :
    ∃ places, Place.AreLinks source units limit state.position places ∧
      (tokenizeWith [WikiLink.rule] (withRules [WikiLink.rule] (depth + 1)) rounds state).output =
        (state.output.write
          (Place.piecesAround source pages units limit state.position places)).flush := by
  have forward := skipsForward_withRules (depth + 1)
  have ordered := wellFormed.ordered
  have ended {state : InlineState} (atLimit : state.position = limit) :
      ∃ places, Place.AreLinks source units limit state.position places ∧
        state.flush.output = (state.output.write
          (Place.piecesAround source pages units limit state.position places)).flush :=
    ⟨[], .nil (Nat.le_of_eq atLimit), output_flush_at ordered atLimit⟩
  induction rounds generalizing state with
  | zero => exact ended (Nat.le_antisymm inOrder enough)
  | succ rounds ih =>
      unfold tokenizeWith
      by_cases inside : state.position < state.limit
      · rw [if_pos inside]
        rcases tryAll_wikiLink forward state with
          noLink | ⟨target, label, stop, begins, read, written⟩
        · -- a step
          obtain ⟨next, nextLimit, later, leLimit⟩ := placed_step wellFormed placed inside
          obtain ⟨places, areLinks, rest⟩ := ih next (draws.step true)
            (Nat.le_trans originLe (Nat.le_of_lt later)) (nextLimit.trans limitEq)
            (limitEq ▸ leLimit) (by omega)
          refine ⟨places, areLinks.of_le (Nat.le_of_lt later), ?_⟩
          rw [noLink]
          simp only [Bool.false_eq_true, if_false]
          rw [rest, output_step wellFormed placed inside,
            ← Place.write_piecesAround_split wellFormed placed.atPosition.boundary next.atPosition
              (limitEq ▸ placed.atLimit.boundary) (Nat.le_of_lt later) areLinks]
        · -- a link
          obtain ⟨place, startEq, rfl, rfl, rfl, isLink⟩ :=
            WikiLink.exists_isLink_of_read wellFormed stretch placed originLe
              (Nat.le_of_eq limitEq) forward.skipsAhead begins read
          obtain ⟨next, nextLimit⟩ := WikiLink.placed_write placed isLink (place.target source)
            (place.parts source).2 (depth + 1)
          have stopLe : place.stop ≤ limit := limitEq ▸
            (WikiLink.encloses_of_read forward.skipsAhead begins read).stop_le
          have later : state.position < place.stop := startEq ▸ isLink.start_lt_stop
          obtain ⟨places, areLinks, rest⟩ := ih next
            (draws_write (keepsOrigin_withRules (depth + 1)) draws isLink.stands
              (place.parts source).2 place.stop)
            (Nat.le_trans originLe (Nat.le_of_lt later)) (nextLimit.trans limitEq)
            stopLe (Nat.le_trans enough (by change state.position + _ ≤ place.stop + _; omega))
          refine ⟨place :: places, .cons (Nat.le_of_eq startEq.symm) isLink areLinks, ?_⟩
          rw [written]
          simp only [if_true]
          rw [rest, WikiLink.output_write wellFormed placed isLink, draws.pages_eq,
            Place.piecesAround, startEq, ordered.piecesIn_self, List.nil_append,
            Output.write_append]
          rfl
      · rw [if_neg inside]
        exact ended (Nat.le_antisymm inOrder (limitEq ▸ Nat.le_of_not_lt inside))

end Tokenizer

namespace SourceUnit

/-- Where a run begins. -/
def runStart (units : List SourceUnit) : Nat :=
  (units.head?.map SourceUnit.start).getD 0

/-- Where a run ends. -/
def runStop (units : List SourceUnit) : Nat :=
  (units.getLast?.map SourceUnit.stop).getD 0

/-- The pieces of a whole run are its units. -/
theorem piecesIn_run {source : String} {units : List SourceUnit}
    (wellFormed : WellFormed source units) {start stop : Nat}
    (within : ∀ sourceUnit ∈ units, start ≤ sourceUnit.start ∧ sourceUnit.stop ≤ stop) :
    piecesIn source units start stop = units.map piece := by
  have whole : ∀ sourceUnit ∈ units,
      pieceIn? source start stop sourceUnit = some sourceUnit.piece := by
    intro sourceUnit member
    obtain ⟨startLe, leStop⟩ := within sourceUnit member
    unfold pieceIn?
    split
    · rename_i literal
      obtain ⟨text, content⟩ := exists_text_of_isLiteral literal
      have written := wellFormed.literal sourceUnit member text content
      unfold Text.slice? at written
      split at written
      · rw [Nat.max_eq_right startLe, Nat.min_eq_right leStop,
          if_pos (wellFormed.nonempty sourceUnit member), Option.some.inj written, piece, content]
      · cases written
    · exact if_pos ⟨startLe, leStop⟩
  unfold piecesIn
  rw [List.filterMap_congr whole, List.filterMap_eq_map']

end SourceUnit

open SourceUnit (runStart runStop)

/-- The state in front of a run. -/
def InlineState.ofRun (source : String) (pages : PageSet) (units : List SourceUnit) : InlineState :=
  { source, position := runStart units, limit := runStop units, pages, units }

/-- A run that is not empty has borders at its ends, and is tokenized with room for labels: its
tokens are those of the pieces that are written for it. -/
theorem exists_tokenizeRun_of_output {source : String} (pages : PageSet) {units : List SourceUnit}
    (wellFormed : WellFormed source units) (nonempty : units ≠ []) :
    Placed source units (InlineState.ofRun source pages units) ∧
      Stretch units (runStart units) (runStop units) ∧
      (∀ sourceUnit ∈ units,
        runStart units ≤ sourceUnit.start ∧ sourceUnit.stop ≤ runStop units) ∧
      ∃ depth, ∀ rules pieces,
        (Tokenizer.tokenizeWith rules (withRules rules (depth + 1))
          (runStop units - runStart units) (InlineState.ofRun source pages units)).output =
            ((InlineState.ofRun source pages units).output.write pieces).flush →
          tokenizeRun source pages rules units = Piece.tokens "" pieces := by
  obtain ⟨first, head⟩ : ∃ first, units.head? = some first :=
    ⟨_, List.head?_eq_some_head nonempty⟩
  obtain ⟨last, final⟩ : ∃ last, units.getLast? = some last :=
    ⟨_, List.getLast?_eq_some_getLast nonempty⟩
  have startEq : runStart units = first.start := by rw [runStart, head]; rfl
  have stopEq : runStop units = last.stop := by rw [runStop, final]; rfl
  have stretch := wellFormed.stretch_run head final
  have firstMember := List.mem_of_head? head
  have lastMember := List.mem_of_getLast? final
  have firstNonempty := wellFormed.nonempty first firstMember
  have leLast := wellFormed.le_last final firstMember
  rw [← startEq, ← stopEq] at stretch
  refine ⟨⟨rfl, rfl, ⟨?_, stretch.atOrigin⟩, ⟨?_, stretch.atLimit⟩⟩, stretch, ?_,
    last.stop - first.start - 1, ?_⟩
  · change Text.isBoundary source (runStart units) = true
    rw [startEq]
    exact (wellFormed.boundaries first firstMember).1
  · change Text.isBoundary source (runStop units) = true
    rw [stopEq]
    exact (wellFormed.boundaries last lastMember).2
  · rw [startEq, stopEq]
    exact fun _ member => ⟨wellFormed.first_le head member, wellFormed.le_last final member⟩
  · intro rules pieces outputEq
    refine Eq.trans ?_ (InlineState.reverse_tokens_eq outputEq)
    have depthEq : last.stop - first.start - 1 + 1 = last.stop - first.start := by omega
    unfold tokenizeRun InlineState.ofRun
    rw [depthEq, startEq, stopEq]
    simp only [head, final]
    rfl

/-- Where no rule claims anything in a run, its tokens are those of all its units. -/
theorem tokenizeRun_of_refused {source : String} {pages : PageSet} {units : List SourceUnit}
    (wellFormed : WellFormed source units) (nonempty : units ≠ []) {rules : List InlineRule}
    (Calm : InlineState → Prop) (calm : Calm (InlineState.ofRun source pages units))
    (refused : ∀ depth state, Calm state → state.position < state.limit →
      InlineRule.tryAll (withRules rules depth) rules state = { isMatch := false, state })
    (stays : ∀ state, Calm state → state.position < state.limit → Calm (state.step true)) :
    tokenizeRun source pages rules units = Piece.tokens "" (units.map SourceUnit.piece) := by
  obtain ⟨placed, stretch, within, depth, ofOutput⟩ :=
    exists_tokenizeRun_of_output pages wellFormed nonempty
  rw [← SourceUnit.piecesIn_run wellFormed within]
  exact ofOutput rules _ (Tokenizer.output_tokenizeWith_of_refused wellFormed Calm
    (refused (depth + 1)) stays _ calm placed stretch.inOrder
    (by change runStop units ≤ runStart units + _; omega))

/-- The tokens of a run are those of its units, each of them once and in order, around wiki
links that stand one behind the other.  Without wiki links they are those of all units, and so
they are where two opening brackets stand nowhere. -/
theorem tokenizeRun_conserves (source : String) (pages : PageSet) (units : List SourceUnit)
    (wellFormed : WellFormed source units) :
    (∃ places, WikiLink.Place.AreLinks source units (runStop units) (runStart units) places ∧
      tokenizeRun source pages [WikiLink.rule] units =
        Piece.tokens "" (WikiLink.Place.piecesAround source pages units (runStop units)
          (runStart units) places)) ∧
    tokenizeRun source pages [] units = Piece.tokens "" (units.map SourceUnit.piece) ∧
    ((∀ position, runStart units ≤ position → position + 2 ≤ runStop units →
        ¬ (Text.byteAt? source position = some '[' ∧
          Text.byteAt? source (position + 1) = some '[')) →
      tokenizeRun source pages [WikiLink.rule] units = tokenizeRun source pages [] units) := by
  rcases eq_or_ne units [] with rfl | nonempty
  · exact ⟨⟨[], .nil (Nat.le_refl _), rfl⟩, rfl, fun _ => rfl⟩
  obtain ⟨placed, stretch, _, depth, ofOutput⟩ :=
    exists_tokenizeRun_of_output pages wellFormed nonempty
  have withoutRules : tokenizeRun source pages [] units =
      Piece.tokens "" (units.map SourceUnit.piece) :=
    tokenizeRun_of_refused wellFormed nonempty (fun _ => True) trivial (fun _ _ _ _ => rfl)
      (fun _ _ _ => trivial)
  refine ⟨?links, withoutRules, ?noBrackets⟩
  case links =>
    obtain ⟨places, areLinks, outputEq⟩ := Tokenizer.exists_piecesAround wellFormed stretch depth
      (runStop units - runStart units) placed ⟨rfl, rfl, rfl, nofun⟩ (Nat.le_refl _) rfl
      stretch.inOrder (by change runStop units ≤ runStart units + _; omega)
    exact ⟨places, areLinks, ofOutput _ _ outputEq⟩
  case noBrackets =>
    intro noBrackets
    rw [withoutRules]
    refine tokenizeRun_of_refused wellFormed nonempty (fun state => Placed source units state ∧
      runStart units ≤ state.position ∧ state.limit = runStop units)
      ⟨placed, Nat.le_refl _, rfl⟩ ?refused ?stays
    case refused =>
      rintro depth state ⟨here, startLe, limitEq⟩ _
      refine Tokenizer.tryAll_eq_of_refused (by simp) _ (.inr ?_)
      by_contra begins
      unfold WikiLink.mayBegin at begins
      simp only [Bool.not_eq_false, Bool.and_eq_true, decide_eq_true_eq, beq_iff_eq,
        here.source_eq] at begins
      exact noBrackets state.position startLe (by omega) ⟨begins.1.2, begins.2⟩
    case stays =>
      rintro state ⟨here, startLe, limitEq⟩ inside
      obtain ⟨next, nextLimit, later, _⟩ := placed_step wellFormed here inside
      exact ⟨next, Nat.le_trans startLe (Nat.le_of_lt later), nextLimit.trans limitEq⟩

/-- The units of a wiki link with emphasis in its label, and of one without a label. -/
def twoLinks : List SourceUnit :=
  [⟨0, 4, .text "[[x|" true⟩, ⟨4, 5, .opening (SourceUnit.openingToken .emphasis)⟩,
    ⟨5, 6, .text "y" true⟩, ⟨6, 7, .closing (SourceUnit.closingToken .emphasis)⟩,
    ⟨7, 17, .text "]] [[z#a]]" true⟩]

/-- The first link has the units of its label, and the second one the name of its page. -/
theorem tokenizeRun_conserves_twoLinks :
    let source := "[[x|*y*]] [[z#a]]"
    let tokens := tokenizeRun source ⟨["z"]⟩ [WikiLink.rule] twoLinks
    WellFormed source twoLinks ∧
      tokens.map (fun token => (token.kind, token.content)) =
        [(.linkOpen, ""), (.emOpen, ""), (.text, "y"), (.emClose, ""), (.linkClose, ""),
          (.text, " "), (.linkOpen, ""), (.text, "z"), (.linkClose, "")] ∧
      (tokens.filter fun token => token.kind = .linkOpen).map Token.attributes =
        [[("href", "x.html"), ("class", "wiki-link broken")],
          [("href", "z.html#a"), ("class", "wiki-link")]] ∧
      tokenizeRun source ⟨["z"]⟩ [] twoLinks = Piece.tokens "" (twoLinks.map SourceUnit.piece) ∧
      ∃ places, WikiLink.Place.AreLinks source twoLinks 17 0 places ∧
        tokens = Piece.tokens ""
          (WikiLink.Place.piecesAround source ⟨["z"]⟩ twoLinks 17 0 places) := by
  intro source tokens
  have wellFormed : WellFormed source twoLinks := by decide +kernel
  obtain ⟨links, plain, _⟩ := tokenizeRun_conserves source ⟨["z"]⟩ twoLinks wellFormed
  exact ⟨wellFormed, by decide +kernel, by decide +kernel, plain, links⟩

end WikiPress
