import WikiPress.Proofs.Token.Nesting

/-!
# Pairs of tokens

What is written for a token is decided by its tag and by whether it is hidden, not by its
kind alone.  Tokens are paired if they are well nested and the two tokens of each container
agree in these.  A walk that keeps a stack of open tokens decides whether they are.
-/

namespace WikiPress.Token

/-- The second token closes what the first one opens: it is of the closing kind and has the
same tag, and both or none of them are hidden. -/
def Closes (opener closer : Token) : Prop :=
  opener.kind.role = .opening closer.kind ∧ closer.tag = opener.tag ∧
    closer.isHidden = opener.isHidden

instance (opener closer : Token) : Decidable (Closes opener closer) :=
  inferInstanceAs (Decidable (_ ∧ _ ∧ _))

/-- Well-nested tokens, each container of which is closed by a token like its opening one. -/
inductive Paired : List Token → Prop where
  | nil : Paired []
  | single {token : Token} {rest : List Token} (neutral : token.kind.role = .neutral)
      (behind : Paired rest) : Paired (token :: rest)
  | pair {opener closer : Token} {inside rest : List Token} (closes : Closes opener closer)
      (content : Paired inside) (behind : Paired rest) :
      Paired (opener :: (inside ++ closer :: rest))

theorem Closes.role_eq {opener closer : Token} (closes : Closes opener closer) :
    closer.kind.role = .closing := by
  have roles (first last : Kind) (opens : first.role = .opening last) : last.role = .closing := by
    cases first <;> cases opens <;> rfl
  exact roles _ _ closes.1

theorem Paired.append {first second : List Token} (paired : Paired first)
    (behind : Paired second) : Paired (first ++ second) := by
  induction paired with
  | nil => exact behind
  | single neutral _ ih => exact .single neutral ih
  | pair closes content _ _ ih =>
      rw [List.cons_append, List.append_assoc]
      exact .pair closes content ih

/-! ## Deciding -/

/-- The open tokens behind a token, the innermost first, unless it closes none of them. -/
def openBehind? (openers : List Token) (token : Token) : Option (List Token) :=
  match token.kind.role with
  | .opening _ => some (token :: openers)
  | .neutral => some openers
  | .closing =>
    match openers with
    | [] => none
    | opener :: openers => if Closes opener token then some openers else none

/-- Tokens that close the open ones, with paired tokens around. -/
def PairedBehind : (openers : List Token) → List Token → Prop
  | [], tokens => Paired tokens
  | opener :: openers, tokens => ∃ inside closer rest, tokens = inside ++ closer :: rest ∧
      Closes opener closer ∧ Paired inside ∧ PairedBehind openers rest

theorem PairedBehind.prepend {openers front tokens : List Token} (paired : Paired front)
    (behind : PairedBehind openers tokens) : PairedBehind openers (front ++ tokens) := by
  cases openers with
  | nil => exact paired.append behind
  | cons opener openers =>
      obtain ⟨inside, closer, rest, rfl, closes, content, others⟩ := behind
      exact ⟨front ++ inside, closer, rest, (List.append_assoc ..).symm, closes,
        paired.append content, others⟩

theorem pairedBehind_of_foldlM {openers tokens : List Token}
    (closed : tokens.foldlM openBehind? openers = some []) : PairedBehind openers tokens := by
  induction tokens generalizing openers with
  | nil =>
      cases closed
      exact .nil
  | cons token rest ih =>
      rw [List.foldlM_cons] at closed
      obtain ⟨next, step, run⟩ := Option.bind_eq_some_iff.mp closed
      have behind := ih run
      unfold openBehind? at step
      split at step
      · cases step
        obtain ⟨inside, closer, rest, rfl, closes, content, others⟩ := behind
        have pair : Paired (token :: (inside ++ [closer])) := .pair closes content .nil
        have whole := others.prepend pair
        rwa [List.cons_append, List.append_assoc] at whole
      · rename_i neutral
        cases step
        exact behind.prepend (.single neutral .nil)
      · split at step
        · cases step
        · split at step
          · rename_i closes
            cases step
            exact ⟨[], token, rest, rfl, closes, .nil, behind⟩
          · cases step

/-- Paired tokens leave the open ones as they were. -/
theorem Paired.foldlM_openBehind? {tokens : List Token} (paired : Paired tokens)
    (openers : List Token) : tokens.foldlM openBehind? openers = some openers := by
  induction paired generalizing openers with
  | nil => rfl
  | @single token rest neutral _ ih =>
      have passed : openBehind? openers token = some openers := by
        unfold openBehind?
        rw [neutral]
      rw [List.foldlM_cons, passed]
      exact ih openers
  | @pair opener closer inside rest closes _ _ insideIh restIh =>
      have opened : openBehind? openers opener = some (opener :: openers) := by
        unfold openBehind?
        rw [closes.1]
      have closed : openBehind? (opener :: openers) closer = some openers := by
        unfold openBehind?
        rw [closes.role_eq]
        exact if_pos closes
      rw [List.foldlM_cons, opened]
      change (inside ++ closer :: rest).foldlM openBehind? (opener :: openers) = some openers
      rw [List.foldlM_append, insideIh]
      change (closer :: rest).foldlM openBehind? (opener :: openers) = some openers
      rw [List.foldlM_cons, closed]
      exact restIh openers

/-- Tokens are paired if a walk through them closes all that are open. -/
theorem paired_iff_foldlM {tokens : List Token} :
    Paired tokens ↔ tokens.foldlM openBehind? [] = some [] :=
  ⟨fun paired => paired.foldlM_openBehind? [], pairedBehind_of_foldlM⟩

instance (tokens : List Token) : Decidable (Paired tokens) :=
  decidable_of_iff ((tokens.foldlM openBehind? []).any List.isEmpty = true) (by
    rw [paired_iff_foldlM]
    cases tokens.foldlM openBehind? [] <;> simp)

end WikiPress.Token
