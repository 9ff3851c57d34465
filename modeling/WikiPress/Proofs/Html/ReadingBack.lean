import WikiPress.Engine
import WikiPress.Proofs.Html.Balance

/-!
# Reading back what is rendered

The tags that are read from a rendered document are those of its tokens, in order, with
their attributes unescaped.  So the texts, the code and the values in a document have no
part in which tags there are, and well-nested tokens give balanced HTML.
-/

namespace WikiPress

/-- A token without its texts: its content, its info, its attributes and its children. -/
def Token.outline (token : Token) : Token.Kind × String × Token.Nesting :=
  (token.kind, token.tag, token.nesting)

namespace Html

/-- What a tag opens or closes. -/
def Tag.mark (tag : Tag) : String × Bool :=
  (tag.name, tag.isClosing)

/-- Which elements a token opens and closes does not depend on its texts. -/
theorem map_mark_tokenTags {token other : Token} (same : other.outline = token.outline) :
    (tokenTags other).map Tag.mark = (tokenTags token).map Tag.mark := by
  obtain ⟨kindEq, tagEq, nestingEq⟩ : other.kind = token.kind ∧ other.tag = token.tag ∧
      other.nesting = token.nesting := by simpa [Token.outline] using same
  unfold tokenTags
  rw [kindEq]
  split
  case h_10 =>
    unfold ownTag Tag.mark
    simp [tagEq, nestingEq]
  all_goals rfl

theorem map_mark_tagsOf {tokens others : List Token}
    (same : (shownTokens others).map Token.outline = (shownTokens tokens).map Token.outline) :
    (tagsOf others).map Tag.mark = (tagsOf tokens).map Tag.mark := by
  unfold tagsOf
  generalize shownTokens others = others at same ⊢
  generalize shownTokens tokens = tokens at same ⊢
  induction tokens generalizing others with
  | nil =>
      rw [List.map_eq_nil_iff.mp same]
  | cons token tokens ih =>
      obtain ⟨other, others, rfl, first, rest⟩ := List.map_eq_cons_iff.mp same
      rw [List.flatMap_cons, List.map_append, List.flatMap_cons, List.map_append,
        map_mark_tokenTags first, ih _ rest]

/-- Every `<` of a rendered document starts a tag of a token that is not hidden: what stands in
front of it reads as the tags before, what follows up to the next `>` as this tag, and the
rest as the tags behind it. -/
theorem exists_tag_of_lt {tokens : List Token} (built : IsDocument tokens)
    (noHtml : HasNoHtml tokens) {before behind : List Char}
    (starts : (render tokens).toList = before ++ '<' :: behind) :
    ∃ token ∈ shownTokens tokens, ∃ tag ∈ tokenTags token, ∃ earlier later inner rest,
      tagsOf tokens = earlier ++ tag :: later ∧ behind = inner ++ '>' :: rest ∧ '>' ∉ inner ∧
        readTags before = some earlier ∧ readTag inner = some tag ∧ readTags rest = some later := by
  have writes := writes_render built noHtml
  rw [starts] at writes
  obtain ⟨earlier, tag, later, inner, rest, tagsEq, front, behindEq, noClosing, read, others⟩ :=
    writes.exists_tag
  have member : tag ∈ tagsOf tokens := by simp [tagsEq]
  obtain ⟨token, shown, ofToken⟩ := List.mem_flatMap.mp member
  exact ⟨token, shown, tag, ofToken, earlier, later, inner, rest, tagsEq, behindEq, noClosing,
    front.readTags_eq, read, others.readTags_eq⟩

/-- Rendered HTML can be read back.  From a document as it is built and without raw HTML the
tags of its tokens are read, in order, and every `<` starts one of them.  A document with other
texts, other code and other attributes, but with tokens of the same kinds and tags, opens and
closes the same elements in the same order.  The tags of paired tokens are balanced. -/
theorem readTags_render {tokens : List Token} (built : IsDocument tokens)
    (noHtml : HasNoHtml tokens) :
    readTags (render tokens).toList = some (tagsOf tokens) ∧
      (∀ before behind, (render tokens).toList = before ++ '<' :: behind →
        ∃ token ∈ shownTokens tokens, ∃ tag ∈ tokenTags token, ∃ earlier later inner rest,
          tagsOf tokens = earlier ++ tag :: later ∧ behind = inner ++ '>' :: rest ∧
            '>' ∉ inner ∧ readTags before = some earlier ∧ readTag inner = some tag ∧
              readTags rest = some later) ∧
      (∀ others, IsDocument others → HasNoHtml others →
        (shownTokens others).map Token.outline = (shownTokens tokens).map Token.outline →
          (readTags (render others).toList).map (·.map Tag.mark) =
            (readTags (render tokens).toList).map (·.map Tag.mark)) ∧
      (Token.Paired tokens →
        (∀ token ∈ tokens, token.kind = .inline → Token.Paired (token.children.getD [])) →
          ∃ tags, readTags (render tokens).toList = some tags ∧ Balanced tags) := by
  have read := (writes_render built noHtml).readTags_eq
  refine ⟨read, fun _ _ => exists_tag_of_lt built noHtml, ?_, ?_⟩
  · intro others othersBuilt othersNoHtml same
    rw [read, (writes_render othersBuilt othersNoHtml).readTags_eq]
    exact congrArg some (map_mark_tagsOf same)
  · intro paired inside
    exact ⟨tagsOf tokens, read, balanced_tagsOf built paired inside⟩

/-- A document in which every text holds marks of tags. -/
def markedTokens : List Token :=
  Engine.wiki.tokenize ⟨[]⟩ "# <b\n\n- `>`![\"](p)\n\n~~~c<\n</\n~~~\n"

/-- A document of the same form without such marks. -/
def plainTokens : List Token :=
  Engine.wiki.tokenize ⟨[]⟩ "# a\n\n- `b`![c](p)\n\n~~~d\ne\n~~~\n"

theorem readTags_render_markedTokens :
    IsDocument markedTokens ∧ HasNoHtml markedTokens ∧
      readTags (render markedTokens).toList = some [
        { name := "h1", attributes := [("id", "b")] }, { name := "h1", isClosing := true },
        { name := "ul" }, { name := "li" },
        { name := "code" }, { name := "code", isClosing := true },
        { name := "img", attributes := [("src", "p"), ("alt", "\"")] },
        { name := "li", isClosing := true }, { name := "ul", isClosing := true },
        { name := "pre" }, { name := "code", attributes := [("class", "language-c<")] },
        { name := "code", isClosing := true }, { name := "pre", isClosing := true }] ∧
      (readTags (render plainTokens).toList).map (·.map Tag.mark) =
        (readTags (render markedTokens).toList).map (·.map Tag.mark) ∧
      ∃ tags, readTags (render markedTokens).toList = some tags ∧ Balanced tags := by
  obtain ⟨built, noHtml, paired, inside⟩ : IsDocument markedTokens ∧ HasNoHtml markedTokens ∧
      Token.Paired markedTokens ∧
      ∀ token ∈ markedTokens, token.kind = .inline → Token.Paired (token.children.getD []) := by
    decide +kernel
  obtain ⟨otherBuilt, otherNoHtml, same⟩ : IsDocument plainTokens ∧ HasNoHtml plainTokens ∧
      (shownTokens plainTokens).map Token.outline =
        (shownTokens markedTokens).map Token.outline := by
    decide +kernel
  obtain ⟨read, _, sameMarks, balanced⟩ := readTags_render built noHtml
  refine ⟨built, noHtml, ?_, sameMarks plainTokens otherBuilt otherNoHtml same,
    balanced paired inside⟩
  rw [read]
  decide +kernel

end Html

end WikiPress
