import WikiPress.Token

/-!
# Nesting of tokens

Containers are pairs of tokens in a flat list.  Reading the list from left to right, the
closing kinds that are awaited form a stack; the list is well nested if each closing
token is the one awaited next and none is awaited in the end.

A part of a well-nested list is well nested itself as soon as a count of its open
containers never falls below zero and ends there.
-/

namespace WikiPress.Token

namespace Kind

/-- What a kind means for the nesting of a list. -/
inductive Role where
  | opening (closer : Kind)
  | closing
  | neutral
deriving DecidableEq

/-- The role of a kind. -/
def role : Kind → Role
  | paragraphOpen => .opening paragraphClose
  | headingOpen => .opening headingClose
  | blockquoteOpen => .opening blockquoteClose
  | bulletListOpen => .opening bulletListClose
  | orderedListOpen => .opening orderedListClose
  | listItemOpen => .opening listItemClose
  | tableOpen => .opening tableClose
  | theadOpen => .opening theadClose
  | tbodyOpen => .opening tbodyClose
  | trOpen => .opening trClose
  | thOpen => .opening thClose
  | tdOpen => .opening tdClose
  | emOpen => .opening emClose
  | strongOpen => .opening strongClose
  | strikethroughOpen => .opening strikethroughClose
  | linkOpen => .opening linkClose
  | paragraphClose | headingClose | blockquoteClose | bulletListClose | orderedListClose
  | listItemClose | tableClose | theadClose | tbodyClose | trClose | thClose | tdClose
  | emClose | strongClose | strikethroughClose | linkClose => .closing
  | _ => .neutral

/-! ## Awaited kinds -/

/-- The closing kinds that are awaited behind a kind, the innermost first. -/
def await? (stack : List Kind) (kind : Kind) : Option (List Kind) :=
  match kind.role with
  | .opening closer => some (closer :: stack)
  | .closing => if stack.head? = some kind then some stack.tail else none
  | .neutral => some stack

/-- The closing kinds that are awaited behind kinds. -/
def awaited? (stack kinds : List Kind) : Option (List Kind) :=
  kinds.foldlM await? stack

/-- Every kind that opens a container is closed by its own closing kind, last opened
first closed. -/
def WellNested (kinds : List Kind) : Prop :=
  awaited? [] kinds = some []

instance (kinds : List Kind) : Decidable (WellNested kinds) :=
  inferInstanceAs (Decidable (awaited? [] kinds = some []))

@[simp]
theorem awaited?_nil (stack : List Kind) : awaited? stack [] = some stack :=
  rfl

@[simp]
theorem awaited?_cons (stack : List Kind) (kind : Kind) (kinds : List Kind) :
    awaited? stack (kind :: kinds) =
      (await? stack kind).bind fun next => awaited? next kinds :=
  rfl

@[simp]
theorem awaited?_append (stack first second : List Kind) :
    awaited? stack (first ++ second) =
      (awaited? stack first).bind fun next => awaited? next second := by
  unfold awaited?
  rw [List.foldlM_append]
  rfl

theorem await?_append {stack next : List Kind} {kind : Kind}
    (awaits : await? stack kind = some next) (below : List Kind) :
    await? (stack ++ below) kind = some (next ++ below) := by
  unfold await? at awaits ⊢
  split at awaits
  · cases awaits
    rfl
  · split at awaits
    · rename_i expected
      cases awaits
      cases stack with
      | nil => cases expected
      | cons first rest =>
          exact if_pos expected
    · cases awaits
  · cases awaits
    rfl

/-- What lies below the stack is not touched. -/
theorem awaited?_append_stack {stack next kinds : List Kind}
    (awaits : awaited? stack kinds = some next) (below : List Kind) :
    awaited? (stack ++ below) kinds = some (next ++ below) := by
  induction kinds generalizing stack with
  | nil =>
      cases awaits
      rfl
  | cons kind kinds ih =>
      rw [awaited?_cons] at awaits ⊢
      obtain ⟨between, step, rest⟩ := Option.bind_eq_some_iff.mp awaits
      rw [await?_append step below]
      exact ih rest

/-- A well-nested list leaves every stack as it was. -/
theorem WellNested.awaited? {kinds : List Kind} (nested : WellNested kinds)
    (stack : List Kind) : awaited? stack kinds = some stack :=
  awaited?_append_stack nested stack

theorem WellNested.append {first second : List Kind} (nested : WellNested first)
    (behind : WellNested second) : WellNested (first ++ second) := by
  unfold WellNested at nested behind ⊢
  rw [awaited?_append, nested]
  exact behind

/-- A well-nested list between an opening kind and its closing one is well nested. -/
theorem WellNested.enclosed {opener closer : Kind} {content : List Kind}
    (closes : opener.role = .opening closer) (closing : closer.role = .closing)
    (nested : WellNested content) : WellNested (opener :: content ++ [closer]) := by
  have opened : await? [] opener = some [closer] := by
    rw [await?, closes]
  have closed : await? [closer] closer = some [] := by
    rw [await?, closing]
    exact if_pos rfl
  unfold WellNested
  rw [List.cons_append, awaited?_cons, opened]
  change Kind.awaited? [closer] _ = some []
  rw [awaited?_append, nested.awaited?]
  change Kind.awaited? [closer] [closer] = some []
  rw [awaited?_cons, closed]
  rfl

/-! ## Counting -/

/-- The number of open containers behind a kind, unless it closes one too many. -/
def countOpen? (depth : Nat) (kind : Kind) : Option Nat :=
  match kind.role with
  | .opening _ => some (depth + 1)
  | .closing => if depth = 0 then none else some (depth - 1)
  | .neutral => some depth

/-- The number of open containers behind kinds, unless one closes one too many. -/
def depth? (depth : Nat) (kinds : List Kind) : Option Nat :=
  kinds.foldlM countOpen? depth

@[simp]
theorem depth?_nil (depth : Nat) : depth? depth [] = some depth :=
  rfl

@[simp]
theorem depth?_cons (depth : Nat) (kind : Kind) (kinds : List Kind) :
    depth? depth (kind :: kinds) =
      (countOpen? depth kind).bind fun next => depth? next kinds :=
  rfl

@[simp]
theorem depth?_append (depth : Nat) (first second : List Kind) :
    depth? depth (first ++ second) =
      (depth? depth first).bind fun next => depth? next second := by
  unfold depth?
  rw [List.foldlM_append]
  rfl

/-- A kind that closes nothing below the counted part of the stack leaves what is
below. -/
theorem of_countOpen? {upper below next : List Kind} {kind : Kind} {depth : Nat}
    (awaits : await? (upper ++ below) kind = some next)
    (counts : countOpen? upper.length kind = some depth) :
    ∃ rest, next = rest ++ below ∧ rest.length = depth ∧ await? upper kind = some rest := by
  unfold await? at awaits ⊢
  unfold countOpen? at counts
  cases role : kind.role with
  | opening closer =>
      rw [role] at awaits counts
      cases awaits
      cases counts
      exact ⟨closer :: upper, rfl, rfl, rfl⟩
  | neutral =>
      rw [role] at awaits counts
      cases awaits
      cases counts
      exact ⟨upper, rfl, rfl, rfl⟩
  | closing =>
      rw [role] at awaits counts
      cases upper with
      | nil => cases counts
      | cons expected upper =>
          cases counts
          by_cases same : some expected = some kind
          · have nextEq : some (upper ++ below) = some next := (if_pos same).symm.trans awaits
            exact ⟨upper, (Option.some.inj nextEq).symm, rfl, if_pos same⟩
          · have none : none = some next := (if_neg same).symm.trans awaits
            cases none

theorem of_depth? {upper below next kinds : List Kind} {depth : Nat}
    (awaits : awaited? (upper ++ below) kinds = some next)
    (counts : depth? upper.length kinds = some depth) :
    ∃ rest, next = rest ++ below ∧ rest.length = depth ∧
      awaited? upper kinds = some rest := by
  induction kinds generalizing upper with
  | nil =>
      cases awaits
      cases counts
      exact ⟨upper, rfl, rfl, rfl⟩
  | cons kind kinds ih =>
      rw [awaited?_cons] at awaits
      rw [depth?_cons] at counts
      obtain ⟨between, step, restAwaits⟩ := Option.bind_eq_some_iff.mp awaits
      obtain ⟨count, stepCounts, restCounts⟩ := Option.bind_eq_some_iff.mp counts
      obtain ⟨middle, rfl, rfl, middleAwaits⟩ := of_countOpen? step stepCounts
      obtain ⟨rest, nextEq, lengthEq, upperAwaits⟩ := ih restAwaits restCounts
      refine ⟨rest, nextEq, lengthEq, ?_⟩
      rw [awaited?_cons, middleAwaits]
      exact upperAwaits

/-- A part of a list that awaits what it closes is well nested if its count of open
containers ends at zero and never falls below. -/
theorem wellNested_of_depth? {stack next kinds : List Kind}
    (awaits : awaited? stack kinds = some next) (counts : depth? 0 kinds = some 0) :
    WellNested kinds := by
  have parts : awaited? ([] ++ stack) kinds = some next := awaits
  obtain ⟨rest, _, empty, nested⟩ := of_depth? parts counts
  rw [List.length_eq_zero_iff.mp empty] at nested
  exact nested

end Kind

/-! ## Tokens -/

/-- The kinds of the tokens that open and close containers. -/
def brackets (tokens : List Token) : List Kind :=
  (tokens.map Token.kind).filter fun kind => kind.role ≠ .neutral

@[simp]
theorem brackets_append (first second : List Token) :
    brackets (first ++ second) = brackets first ++ brackets second := by
  simp [brackets]

@[simp]
theorem brackets_singleton (token : Token) :
    brackets [token] = if token.kind.role = .neutral then [] else [token.kind] := by
  unfold brackets
  by_cases neutral : token.kind.role = .neutral <;> simp [neutral]

/-- Every token that opens a container is closed by a token of its own closing kind,
last opened first closed. -/
def WellNested (tokens : List Token) : Prop :=
  Kind.WellNested (tokens.map Token.kind)

/-- Tokens that open and close nothing do not matter for the nesting. -/
theorem awaited?_filter (stack kinds : List Kind) :
    Kind.awaited? stack (kinds.filter fun kind => kind.role ≠ .neutral) =
      Kind.awaited? stack kinds := by
  induction kinds generalizing stack with
  | nil => rfl
  | cons kind kinds ih =>
      by_cases neutral : kind.role = .neutral
      · have step : Kind.await? stack kind = some stack := by
          rw [Kind.await?, neutral]
        rw [List.filter_cons_of_neg (by simpa using neutral), Kind.awaited?_cons, step, ih]
        rfl
      · rw [List.filter_cons_of_pos (by simpa using neutral), Kind.awaited?_cons,
          Kind.awaited?_cons]
        exact congrArg (Option.bind _) (funext ih)

theorem wellNested_iff_brackets {tokens : List Token} :
    WellNested tokens ↔ Kind.WellNested (brackets tokens) := by
  unfold WellNested Kind.WellNested brackets
  rw [awaited?_filter]

end WikiPress.Token
