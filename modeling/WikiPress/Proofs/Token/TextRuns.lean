import WikiPress.Proofs.Token.Nesting

/-!
# Text blocks among tokens

Paragraphs, headings and cells hold running text, which is one token of kind `inline`.
A list of tokens holds runs if it consists of such blocks, each with its own token between
its opening and its closing one, and of tokens that have to do with no text.
-/

namespace WikiPress.Token

namespace Kind

/-- Whether a kind opens a paragraph, a heading or a cell. -/
def opensText : Kind → Bool
  | paragraphOpen | headingOpen | thOpen | tdOpen => true
  | _ => false

/-- Whether a kind closes a paragraph, a heading or a cell. -/
def closesText : Kind → Bool
  | paragraphClose | headingClose | thClose | tdClose => true
  | _ => false

/-- Whether a kind neither opens nor closes a block of running text, nor is running text. -/
def isApartFromText (kind : Kind) : Bool :=
  !kind.opensText && !kind.closesText && kind != .inline

/-- How the tokens of a role are marked. -/
def Role.nesting : Role → Nesting
  | opening _ => .opening
  | closing => .closing
  | neutral => .leaf

end Kind

/-- Whether a token says of itself that it opens, closes or stands alone as its kind does,
and has tokens inside only if it is running text. -/
structure IsMarked (token : Token) : Prop where
  nesting_eq : token.nesting = token.kind.role.nesting
  childless : token.kind ≠ .inline → token.children = none

/-- Every block of running text holds one inline token and nothing else, and there are no
inline tokens elsewhere.  `runs` are these tokens in order, each with whether its block is
hidden; only paragraphs are. -/
inductive HoldsRuns : List Token → (runs : List (Bool × Token)) → Prop where
  | nil : HoldsRuns [] []
  | apart {token : Token} {rest : List Token} {runs : List (Bool × Token)}
      (apart : token.kind.isApartFromText = true) (behind : HoldsRuns rest runs) :
      HoldsRuns (token :: rest) runs
  | block {opener text closer : Token} {rest : List Token} {runs : List (Bool × Token)}
      (opens : opener.kind.opensText = true) (isInline : text.kind = .inline)
      (closes : opener.kind.role = .opening closer.kind)
      (sameHidden : closer.isHidden = opener.isHidden)
      (isParagraph : opener.isHidden = true → opener.kind = .paragraphOpen)
      (behind : HoldsRuns rest runs) :
      HoldsRuns (opener :: text :: closer :: rest) ((opener.isHidden, text) :: runs)

theorem HoldsRuns.append {first second : List Token} {runs more : List (Bool × Token)}
    (holds : HoldsRuns first runs) (behind : HoldsRuns second more) :
    HoldsRuns (first ++ second) (runs ++ more) := by
  induction holds with
  | nil => exact behind
  | apart apart _ ih => exact .apart apart ih
  | block opens isInline closes sameHidden isParagraph _ ih =>
      exact .block opens isInline closes sameHidden isParagraph ih

theorem HoldsRuns.singleton {token : Token} (apart : token.kind.isApartFromText = true) :
    HoldsRuns [token] [] :=
  .apart apart .nil

theorem Kind.opensText_of_closes {opener closer : Kind} (opens : opener.opensText = true)
    (closes : opener.role = .opening closer) : closer.opensText = false := by
  cases opener <;> cases opens <;> cases closes <;> rfl

/-- Nothing is closed by running text. -/
theorem Kind.ne_inline_of_closes {opener closer : Kind} (closes : opener.role = .opening closer) :
    closer ≠ .inline := by
  cases opener <;> cases closes <;> nofun

/-- The last token opens no block of running text. -/
theorem HoldsRuns.opensText_getLast {tokens : List Token} {runs : List (Bool × Token)}
    (holds : HoldsRuns tokens runs) :
    ∀ last ∈ tokens.getLast?, last.kind.opensText = false := by
  induction holds with
  | nil => simp
  | @apart token rest _ apart _ ih =>
      cases rest with
      | nil =>
          intro last isLast
          cases isLast
          simp only [Kind.isApartFromText, Bool.and_eq_true, Bool.not_eq_true'] at apart
          exact apart.1.1
      | cons next rest => exact ih
  | @block opener text closer rest _ opens _ closes _ _ _ ih =>
      cases rest with
      | nil =>
          intro last isLast
          cases isLast
          exact Kind.opensText_of_closes opens closes
      | cons next rest => exact ih

/-! ## Nesting -/

theorem WellNested.append {first second : List Token} (nested : WellNested first)
    (behind : WellNested second) : WellNested (first ++ second) := by
  unfold WellNested
  rw [List.map_append]
  exact Kind.WellNested.append nested behind

/-- A well-nested list between an opening token and its closing one is well nested. -/
theorem WellNested.enclosed {opener closer : Token} {content : List Token}
    (closes : opener.kind.role = .opening closer.kind) (closing : closer.kind.role = .closing)
    (nested : WellNested content) : WellNested (opener :: content ++ [closer]) := by
  have kinds := Kind.WellNested.enclosed closes closing nested
  unfold WellNested
  rwa [List.map_append, List.map_cons]

/-- Tokens that stand alone are well nested. -/
theorem wellNested_of_neutral {tokens : List Token}
    (neutral : ∀ token ∈ tokens, token.kind.role = .neutral) : WellNested tokens := by
  rw [wellNested_iff_brackets]
  have none : brackets tokens = [] := by
    unfold brackets
    rw [List.filter_eq_nil_iff]
    intro kind member
    obtain ⟨token, tokenMember, rfl⟩ := List.mem_map.mp member
    simpa using neutral token tokenMember
  rw [none]
  rfl

theorem awaited?_flatMap {tokens : List Token} {replace : Token → List Token}
    (keeps : ∀ token ∈ tokens, replace token = [token] ∨
      token.kind.role = .neutral ∧ WellNested (replace token)) (stack : List Kind) :
    Kind.awaited? stack ((tokens.flatMap replace).map Token.kind) =
      Kind.awaited? stack (tokens.map Token.kind) := by
  induction tokens generalizing stack with
  | nil => rfl
  | cons token tokens ih =>
      have behind := ih fun token member => keeps token (List.mem_cons_of_mem _ member)
      rw [List.flatMap_cons, List.map_append, Kind.awaited?_append, List.map_cons,
        Kind.awaited?_cons]
      rcases keeps token List.mem_cons_self with same | ⟨neutral, nested⟩
      · rw [same, List.map_singleton, Kind.awaited?_cons]
        cases Kind.await? stack token.kind with
        | none => rfl
        | some next => exact behind next
      · have passed : Kind.await? stack token.kind = some stack := by
          rw [Kind.await?, neutral]
        rw [nested.awaited?, passed]
        exact behind stack

/-- A list stays well nested if tokens that stand alone are replaced by well-nested
lists. -/
theorem WellNested.flatMap {tokens : List Token} (nested : WellNested tokens)
    {replace : Token → List Token}
    (keeps : ∀ token ∈ tokens, replace token = [token] ∨
      token.kind.role = .neutral ∧ WellNested (replace token)) :
    WellNested (tokens.flatMap replace) :=
  (awaited?_flatMap keeps []).trans nested

end WikiPress.Token
