import WikiPress.Proofs.Inline.TokenOrigin

/-!
# Links inside links

The cursor counts the links that are open behind the tokens it has written, and a wiki link
is read only where none is.  So every link that stands inside another one was a link among
the units before: the rule for wiki links adds none.  Units are passed whatever the count
says, and a link among them can stand inside any other.
-/

namespace WikiPress

open Token.Kind (awaited? await?)

namespace InlineState

/-! ## Open links -/

/-- The number of links that are open behind tokens, the last of which comes first. -/
def openLinks (tokens : List Token) : Nat :=
  tokens.foldr (fun token level => linkLevelAfter level token) 0

@[simp]
theorem openLinks_cons (token : Token) (tokens : List Token) :
    openLinks (token :: tokens) = linkLevelAfter (openLinks tokens) token :=
  rfl

@[simp]
theorem openLinks_append (later earlier : List Token) :
    openLinks (later ++ earlier) =
      later.foldr (fun token level => linkLevelAfter level token) (openLinks earlier) :=
  List.foldr_append

/-- As long as every container is closed by its own kind, a link is open for every closing
kind of a link that is awaited. -/
theorem linkLevelAfter_eq_add_count {token : Token} {stack next : List Token.Kind}
    (awaits : await? stack token.kind = some next) (below : Nat) :
    linkLevelAfter (below + stack.count .linkClose) token = below + next.count .linkClose := by
  unfold linkLevelAfter
  unfold await? at awaits
  cases role : token.kind.role with
  | opening closer =>
      rw [role] at awaits
      cases awaits
      cases kind : token.kind <;> rw [kind] at role <;> cases role <;> simp [Nat.add_assoc]
  | neutral =>
      rw [role] at awaits
      cases awaits
      cases kind : token.kind <;> rw [kind] at role <;> first | rfl | cases role
  | closing =>
      rw [role] at awaits
      simp only at awaits
      split at awaits
      · rename_i expected
        cases awaits
        obtain ⟨rest, rfl⟩ := List.head?_eq_some_iff.mp expected
        cases kind : token.kind <;> rw [kind] at role <;> cases role <;>
          simp [← Nat.add_assoc]
      · cases awaits

theorem foldr_linkLevelAfter_eq_add_count {tokens : List Token} {stack next : List Token.Kind}
    (awaits : awaited? stack (tokens.map Token.kind) = some next) (below : Nat) :
    tokens.reverse.foldr (fun token level => linkLevelAfter level token)
        (below + stack.count .linkClose) =
      below + next.count .linkClose := by
  rw [List.foldr_reverse]
  induction tokens generalizing stack with
  | nil =>
      cases awaits
      rfl
  | cons token tokens ih =>
      rw [List.map_cons, Token.Kind.awaited?_cons] at awaits
      obtain ⟨between, step, rest⟩ := Option.bind_eq_some_iff.mp awaits
      rw [List.foldl_cons, linkLevelAfter_eq_add_count step]
      exact ih rest

/-- Between the two tokens of a link, the link is open. -/
theorem openLinks_pos_of_isPrefix {inside first before : List Token} {opener : Token}
    (isLink : opener.kind = .linkOpen) (nested : Token.WellNested inside)
    (isPart : first <+: inside) : 0 < openLinks (first.reverse ++ opener :: before) := by
  obtain ⟨rest, rfl⟩ := isPart
  unfold Token.WellNested Token.Kind.WellNested at nested
  rw [List.map_append, Token.Kind.awaited?_append] at nested
  obtain ⟨stack, awaits, _⟩ := Option.bind_eq_some_iff.mp nested
  have opened : openLinks (opener :: before) = openLinks before + 1 := by
    rw [openLinks_cons, linkLevelAfter, isLink]
  have counted := foldr_linkLevelAfter_eq_add_count awaits (openLinks (opener :: before))
  rw [openLinks_append]
  change first.reverse.foldr _ (openLinks (opener :: before)) = _ at counted
  omega

/-! ## The count of a state -/

/-- The token is that of a unit. -/
def IsUnitToken (units : List SourceUnit) (token : Token) : Prop :=
  ∃ sourceUnit ∈ units, sourceUnit.content = .opening token ∨
    sourceUnit.content = .closing token ∨ sourceUnit.content = .leaf token

/-- The state counts the links that are open behind its tokens, and those of its links that
are not among the units stand in no other link. -/
structure CountsLinks (units : List SourceUnit) (state : InlineState) : Prop where
  units_eq : state.units = units
  level_eq : state.linkLevel = openLinks state.tokens
  outermost : ∀ token before, token :: before <:+ state.tokens → token.kind = .linkOpen →
    IsUnitToken units token ∨ openLinks before = 0

variable {units : List SourceUnit} {state after : InlineState}

/-- What has the same units, tokens and count as a state that counts links does so too. -/
theorem CountsLinks.of_eq (counts : CountsLinks units state) (unitsEq : after.units = state.units)
    (tokensEq : after.tokens = state.tokens) (levelEq : after.linkLevel = state.linkLevel) :
    CountsLinks units after :=
  ⟨unitsEq.trans counts.units_eq, by rw [levelEq, tokensEq, counts.level_eq],
    by rw [tokensEq]; exact counts.outermost⟩

/-- A token is written and counted. -/
theorem CountsLinks.cons (counts : CountsLinks units state) {token : Token}
    (isApart : token.kind = .linkOpen → IsUnitToken units token ∨ state.linkLevel = 0)
    (unitsEq : after.units = state.units) (tokensEq : after.tokens = token :: state.tokens)
    (levelEq : after.linkLevel = linkLevelAfter state.linkLevel token) :
    CountsLinks units after := by
  refine ⟨unitsEq.trans counts.units_eq, ?_, ?_⟩
  · rw [levelEq, tokensEq, openLinks_cons, counts.level_eq]
  · rw [tokensEq]
    intro link before isPart isLink
    rcases List.suffix_cons_iff.mp isPart with same | earlier
    · cases same
      exact counts.level_eq ▸ isApart isLink
    · exact counts.outermost link before earlier isLink

theorem CountsLinks.flush (counts : CountsLinks units state) :
    CountsLinks units state.flush := by
  unfold InlineState.flush
  split
  · exact counts
  · exact counts.cons (fun isLink => by cases isLink) rfl rfl rfl

@[simp]
theorem flush_linkLevel (state : InlineState) : state.flush.linkLevel = state.linkLevel := by
  unfold flush
  split <;> rfl

/-- A token is written behind pending text, and counted. -/
theorem CountsLinks.push (counts : CountsLinks units state) {token : Token}
    (isApart : token.kind = .linkOpen → IsUnitToken units token ∨ state.linkLevel = 0)
    (unitsEq : after.units = state.units) (tokensEq : after.tokens = (state.push token).tokens)
    (levelEq : after.linkLevel = linkLevelAfter state.linkLevel token) :
    CountsLinks units after := by
  have flushed := counts.flush
  refine flushed.cons ?_ (unitsEq.trans (counts.units_eq.trans flushed.units_eq.symm)) tokensEq ?_
  · rw [flush_linkLevel]
    exact isApart
  · rw [flush_linkLevel]
    exact levelEq

theorem CountsLinks.goto (counts : CountsLinks units state) (position : Nat) :
    CountsLinks units (state.goto position) :=
  counts.of_eq rfl rfl rfl

theorem CountsLinks.pushText (counts : CountsLinks units state) (text : String) :
    CountsLinks units (state.pushText text) :=
  counts.of_eq rfl rfl rfl

theorem push_tokens (state : InlineState) (token : Token) :
    (state.push token).tokens = token ::
      if state.pending.isEmpty then state.tokens
      else Token.ofText state.pending :: state.tokens := by
  unfold push flush
  split <;> rfl

@[simp]
theorem push_units (state : InlineState) (token : Token) :
    (state.push token).units = state.units := by
  unfold push flush
  split <;> rfl

@[simp]
theorem push_linkLevel (state : InlineState) (token : Token) :
    (state.push token).linkLevel = state.linkLevel :=
  state.flush_linkLevel

theorem CountsLinks.passToken (counts : CountsLinks units state) (emit : Bool) {token : Token}
    (isUnit : IsUnitToken units token) (stop : Nat) :
    CountsLinks units (state.passToken emit token stop) := by
  unfold InlineState.passToken
  split
  · have counted : CountsLinks units
        ({ state with linkLevel := linkLevelAfter state.linkLevel token }.push token) :=
      counts.push (fun _ => .inl isUnit) (push_units _ _)
        (by rw [push_tokens, push_tokens]) (push_linkLevel _ token)
    exact counted.goto stop
  · exact counts.goto stop

theorem CountsLinks.step (counts : CountsLinks units state) (emit : Bool) :
    CountsLinks units (state.step emit) := by
  unfold InlineState.step
  cases found : state.currentUnit? with
  | none => exact counts.goto _
  | some sourceUnit =>
      have member : sourceUnit ∈ units := counts.units_eq ▸ List.mem_of_find?_eq_some found
      simp only
      split
      · exact counts.goto _
      · cases content : sourceUnit.content with
        | text text isLiteral =>
            cases isLiteral with
            | true =>
                simp only
                split
                · split
                  · exact (counts.pushText _).goto _
                  · exact counts.goto _
                · exact counts.goto _
            | false =>
                simp only
                split
                · exact (counts.pushText _).goto _
                · exact counts.goto _
        | opening token => exact counts.passToken emit ⟨_, member, .inl content⟩ _
        | closing token => exact counts.passToken emit ⟨_, member, .inr (.inl content)⟩ _
        | leaf token => exact counts.passToken emit ⟨_, member, .inr (.inr content)⟩ _

end InlineState

open InlineState

/-! ## Runs -/

namespace Tokenizer

variable {units : List SourceUnit} {inner : Tokenizer} {state : InlineState}

/-- A tokenizer that goes on counting. -/
def KeepsCount (units : List SourceUnit) (tokenizer : Tokenizer) : Prop :=
  ∀ state, CountsLinks units state → CountsLinks units (tokenizer.tokenize state)

/-- A link is read only where no other is open. -/
theorem linkLevel_eq_zero_of_tryAll
    (isMatch : (InlineRule.tryAll inner [WikiLink.rule] state).isMatch = true) :
    state.linkLevel = 0 := by
  by_contra isOpen
  have refused : (false || decide (0 < state.linkLevel) || !WikiLink.mayBegin state) = true := by
    rw [decide_eq_true (Nat.pos_of_ne_zero isOpen)]
    rfl
  simp only [InlineRule.tryAll, WikiLink.rule, if_pos refused] at isMatch
  cases isMatch

/-- A wiki link is counted while its label is written, and no longer behind it. -/
theorem countsLinks_write (keeps : inner.KeepsCount units) (counts : CountsLinks units state)
    (noneOpen : state.linkLevel = 0) (target : WikiLink.Target) (label : Option Span)
    (stop : Nat) : CountsLinks units (WikiLink.write inner state target label stop) := by
  let opener := WikiLink.openingToken target state.pages
  let opened := state.push opener
  have isApart : opener.kind = .linkOpen → IsUnitToken units opener ∨ state.linkLevel = 0 :=
    fun _ => .inr noneOpen
  have inLink (position limit : Nat) : CountsLinks units
      { opened with position, limit, linkLevel := opened.linkLevel + 1 } := by
    refine counts.push isApart (push_units state opener) rfl ?_
    change opened.linkLevel + 1 = state.linkLevel + 1
    rw [push_linkLevel]
  have noLink {link : Prop} (isLink : WikiLink.closingToken.kind = .linkOpen) : link := by
    cases isLink
  have closed {inside : InlineState} (counted : CountsLinks units inside) (limit : Nat) :
      CountsLinks units
        ({ inside with linkLevel := inside.linkLevel - 1, limit }.push WikiLink.closingToken) :=
    counted.push noLink (push_units _ _) (by rw [push_tokens, push_tokens]) (push_linkLevel _ _)
  cases label with
  | none =>
      have labelled := (inLink opened.position opened.limit).pushText target.destination
      exact (closed labelled opened.limit).goto stop
  | some range => exact (closed (keeps _ (inLink range.start range.stop)) opened.limit).goto stop

theorem countsLinks_round (forward : inner.SkipsForward) (keeps : inner.KeepsCount units)
    (counts : CountsLinks units state) {attempt : InlineRule.Attempt}
    (tried : InlineRule.tryAll inner [WikiLink.rule] state = attempt) :
    CountsLinks units (if attempt.isMatch then attempt.state else attempt.state.step true) := by
  rcases tryAll_wikiLink forward state with
    noLink | ⟨target, label, stop, _, _, written⟩
  · rw [← tried, noLink]
    exact counts.step true
  · have isMatch : (InlineRule.tryAll inner [WikiLink.rule] state).isMatch = true := by
      rw [written]
    have noneOpen : state.linkLevel = 0 := linkLevel_eq_zero_of_tryAll isMatch
    rw [← tried, written]
    exact countsLinks_write keeps counts noneOpen target label stop

theorem keepsCount_withRules (depth : Nat) :
    (withRules [WikiLink.rule] depth).KeepsCount units := by
  induction depth with
  | zero => exact fun state counts => counts.flush
  | succ depth ih =>
      intro state counts
      change CountsLinks units
        (tokenizeWith [WikiLink.rule] (withRules [WikiLink.rule] depth) _ state)
      induction state.limit - state.position generalizing state with
      | zero => exact counts.flush
      | succ rounds roundsIh =>
          unfold tokenizeWith
          split
          · exact roundsIh _ (countsLinks_round (skipsForward_withRules depth) ih counts rfl)
          · exact counts.flush

end Tokenizer

/-- A link among tokens: its opening token, what stands inside, and behind it the closing
token that belongs to it. -/
structure Token.IsAnchor (tokens : List Token) (opener : Token) (inside : List Token) : Prop where
  opens : opener.kind = .linkOpen
  nested : WellNested inside
  stands : ∃ before closer behind, closer.kind = .linkClose ∧
    tokens = before ++ opener :: (inside ++ closer :: behind)

/-- What stands inside a link stands behind an open one, so that no rule wrote it. -/
theorem InlineState.CountsLinks.isUnitToken {units : List SourceUnit} {state : InlineState}
    (counts : CountsLinks units state) {opener token : Token} {inside : List Token}
    (anchor : Token.IsAnchor state.tokens.reverse opener inside) (member : token ∈ inside)
    (isLink : token.kind = .linkOpen) : IsUnitToken units token := by
  obtain ⟨before, closer, behind, _, tokensEq⟩ := anchor.stands
  obtain ⟨first, rest, insideEq⟩ := List.append_of_mem member
  have isPart : token :: (first.reverse ++ opener :: before.reverse) <:+ state.tokens := by
    rw [List.reverse_eq_iff.mp tokensEq, insideEq]
    exact ⟨behind.reverse ++ closer :: rest.reverse, by simp⟩
  rcases counts.outermost token _ isPart isLink with isUnit | noneOpen
  · exact isUnit
  · have isOpen : 0 < openLinks (first.reverse ++ opener :: before.reverse) :=
      openLinks_pos_of_isPrefix anchor.opens anchor.nested ⟨token :: rest, insideEq.symm⟩
    omega

/-- Every link inside another one is a link among the units of the run. -/
theorem isUnitToken_of_isAnchor {source : String} {pages : PageSet} {units : List SourceUnit}
    {opener token : Token} {inside : List Token}
    (anchor : Token.IsAnchor (tokenizeRun source pages [WikiLink.rule] units) opener inside)
    (member : token ∈ inside) (isLink : token.kind = .linkOpen) : IsUnitToken units token := by
  unfold tokenizeRun at anchor
  split at anchor
  · have begins (position limit : Nat) : CountsLinks units
        { source, position, limit, pages, units } :=
      ⟨rfl, rfl, fun _ _ isPart => by cases List.suffix_nil.mp isPart⟩
    exact (Tokenizer.keepsCount_withRules _ _ (begins _ _)).isUnitToken anchor member isLink
  · obtain ⟨before, closer, behind, _, tokensEq⟩ := anchor.stands
    simp at tokensEq

end WikiPress
