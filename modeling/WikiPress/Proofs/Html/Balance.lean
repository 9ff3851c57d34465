import WikiPress.Proofs.Html.Rendering
import WikiPress.Proofs.Token.Pairing

/-!
# Balanced tags

The tags of well-nested tokens are balanced.  A pair of tokens is written with a pair of
tags of one name, or without tags if it is hidden; every token that stands alone is written
with balanced tags of its own.
-/

namespace WikiPress.Html

/-- The names of the elements that have no content and are not closed. -/
def voidNames : List String :=
  ["area", "base", "br", "col", "embed", "hr", "img", "input", "link", "meta", "source",
    "track", "wbr"]

/-- Every element is closed by a tag of its name, last opened first closed. -/
inductive Balanced : List Tag → Prop where
  | nil : Balanced []
  | void {tag : Tag} {rest : List Tag} (opens : tag.isClosing = false)
      (isVoid : tag.name ∈ voidNames) (behind : Balanced rest) : Balanced (tag :: rest)
  | element {opener closer : Tag} {inside rest : List Tag} (opens : opener.isClosing = false)
      (closes : closer.isClosing = true) (sameName : closer.name = opener.name)
      (notVoid : opener.name ∉ voidNames) (content : Balanced inside) (behind : Balanced rest) :
      Balanced (opener :: (inside ++ closer :: rest))

theorem Balanced.append {first second : List Tag} (balanced : Balanced first)
    (behind : Balanced second) : Balanced (first ++ second) := by
  induction balanced with
  | nil => exact behind
  | void opens isVoid _ ih => exact .void opens isVoid ih
  | element opens closes sameName notVoid content _ _ ih =>
      rw [List.cons_append, List.append_assoc]
      exact .element opens closes sameName notVoid content ih

variable {token : Token}

/-! ## One token -/

theorem balanced_code (attributes : List (String × String)) :
    Balanced [{ name := "code", attributes }, { name := "code", isClosing := true }] := by
  have notVoid : "code" ∉ voidNames := by decide
  exact @Balanced.element _ _ [] [] rfl rfl rfl notVoid .nil .nil

theorem balanced_codeTags (attributes : List (String × String)) :
    Balanced (codeTags attributes) := by
  have notVoid : "pre" ∉ voidNames := by decide
  exact @Balanced.element { name := "pre" } { name := "pre", isClosing := true } _ [] rfl rfl rfl
    notVoid (balanced_code attributes) .nil

/-- A tag that stands alone is that of a thematic break or of an image. -/
theorem mem_voidNames : ∀ kind : Token.Kind, kind.role = .neutral → kind.isTag = true →
    ∀ name ∈ kind.tagNames, name ∈ voidNames := by
  decide +kernel

/-- An element whose tokens come in pairs has content. -/
theorem not_mem_voidNames : ∀ kind closer : Token.Kind, kind.role = .opening closer →
    ∀ name ∈ kind.tagNames, name ∉ voidNames := by
  decide +kernel

theorem ownTag_isClosing (built : token.IsBuilt) :
    (ownTag token).isClosing = decide (token.kind.role = .closing) := by
  unfold ownTag
  rw [built.nesting_eq]
  cases token.kind <;> rfl

/-- A token that stands alone is written with balanced tags. -/
theorem balanced_tokenTags (built : token.IsBuilt) (neutral : token.kind.role = .neutral) :
    Balanced (tokenTags token) := by
  by_cases isTag : token.kind.isTag = true
  · have opens : (ownTag token).isClosing = false := by
      rw [ownTag_isClosing built, neutral]
      rfl
    rw [tokenTags_of_isTag isTag]
    exact .void opens (mem_voidNames _ neutral isTag _ built.tag_mem) .nil
  · unfold tokenTags
    split
    case h_6 => exact .void rfl (by decide) .nil
    case h_7 => exact balanced_code token.attributes
    case h_8 => exact balanced_codeTags []
    case h_9 => exact balanced_codeTags (languageClass token.info)
    case h_10 notInline notText notSoft notHtmlBlock notHtmlInline notHard notCode notBlock
        notFence =>
      cases isBlock : token.kind.isBlockLevel with
      | true =>
          exact absurd
            (isTag_of_block _ isBlock ⟨notInline, notBlock, notFence, notHtmlBlock⟩) isTag
      | false =>
          exact absurd
            (isTag_of_inline _ isBlock ⟨notText, notCode, notHtmlInline, notSoft, notHard⟩) isTag
    all_goals exact .nil

/-- Balanced tags stay balanced between a token that opens something and the one that
closes it. -/
theorem balanced_shownTags {opener closer : Token} {inside rest : List Tag}
    (openerBuilt : opener.IsBuilt) (closerBuilt : closer.IsBuilt)
    (closes : Token.Closes opener closer) (content : Balanced inside) (behind : Balanced rest) :
    Balanced (shownTags opener ++ (inside ++ (shownTags closer ++ rest))) := by
  have closing := closes.role_eq
  obtain ⟨opening, sameTag, sameHidden⟩ := closes
  unfold shownTags
  rw [sameHidden]
  cases opener.isHidden with
  | true => exact content.append behind
  | false =>
      have openerTag : opener.kind.isTag = true := by simp [Token.Kind.isTag, opening]
      have closerTag : closer.kind.isTag = true := by simp [Token.Kind.isTag, closing]
      have opens : (ownTag opener).isClosing = false := by
        rw [ownTag_isClosing openerBuilt, opening]
        rfl
      have ends : (ownTag closer).isClosing = true := by
        rw [ownTag_isClosing closerBuilt, closing]
        rfl
      rw [if_neg Bool.false_ne_true, if_neg Bool.false_ne_true, tokenTags_of_isTag openerTag,
        tokenTags_of_isTag closerTag]
      exact .element opens ends sameTag (not_mem_voidNames _ _ opening _ openerBuilt.tag_mem)
        content behind

/-! ## Many tokens -/

/-- The tags of paired tokens are balanced if those of single tokens are. -/
theorem balanced_flatMap {tokens : List Token} (paired : Token.Paired tokens)
    {tags : Token → List Tag} (built : ∀ token ∈ tokens, token.IsBuilt)
    (single : ∀ token ∈ tokens, token.kind.role = .neutral → Balanced (tags token))
    (other : ∀ token ∈ tokens, token.kind.role ≠ .neutral → tags token = shownTags token) :
    Balanced (tokens.flatMap tags) := by
  induction paired with
  | nil => exact .nil
  | @single token rest neutral _ ih =>
      rw [List.flatMap_cons]
      refine (single token List.mem_cons_self neutral).append (ih ?_ ?_ ?_)
      · exact fun token member => built token (List.mem_cons_of_mem _ member)
      · exact fun token member => single token (List.mem_cons_of_mem _ member)
      · exact fun token member => other token (List.mem_cons_of_mem _ member)
  | @pair opener closer inside rest closes _ _ insideIh restIh =>
      have openerMember : opener ∈ opener :: (inside ++ closer :: rest) := List.mem_cons_self
      have closerMember : closer ∈ opener :: (inside ++ closer :: rest) := by simp
      have content : Balanced (inside.flatMap tags) := insideIh
        (fun token member => built token (by simp [member]))
        (fun token member => single token (by simp [member]))
        (fun token member => other token (by simp [member]))
      have behind : Balanced (rest.flatMap tags) := restIh
        (fun token member => built token (by simp [member]))
        (fun token member => single token (by simp [member]))
        (fun token member => other token (by simp [member]))
      rw [List.flatMap_cons, List.flatMap_append, List.flatMap_cons,
        other opener openerMember (by rw [closes.1]; nofun),
        other closer closerMember (by rw [closes.role_eq]; nofun)]
      exact balanced_shownTags (built opener openerMember) (built closer closerMember) closes
        content behind

/-- The tags of a document whose tokens are paired are balanced. -/
theorem balanced_tagsOf {tokens : List Token} (built : IsDocument tokens)
    (paired : Token.Paired tokens)
    (inside : ∀ token ∈ tokens, token.kind = .inline → Token.Paired (token.children.getD [])) :
    Balanced (tagsOf tokens) := by
  rw [tagsOf_eq_flatMap]
  refine balanced_flatMap paired (fun token member => (built.blocks token member).2) ?_ ?_
  · intro token member neutral
    by_cases isInline : token.kind = .inline
    · have inlines := built.inlines token member
      rw [blockTags, if_pos isInline]
      refine balanced_flatMap (inside token member isInline)
        (fun child member => (inlines child member).2) ?_ fun _ _ _ => rfl
      intro child childMember neutral
      have childBuilt := (inlines child childMember).2
      rw [shownTags_of_neutral childBuilt neutral]
      exact balanced_tokenTags childBuilt neutral
    · have tokenBuilt := (built.blocks token member).2
      rw [blockTags_of_ne isInline, shownTags_of_neutral tokenBuilt neutral]
      exact balanced_tokenTags tokenBuilt neutral
  · intro token _ marked
    refine blockTags_of_ne fun isInline => marked ?_
    rw [isInline]
    rfl

end WikiPress.Html
