import WikiPress.Proofs.Block.Links
import WikiPress.Proofs.Inline.LinkLevel

/-!
# Links inside links in documents

A wiki link never stands inside another link.  A link of Markdown can: in the label of a
wiki link, or, if it is an address in angle brackets, in another link of Markdown.
-/

namespace WikiPress

/-- The tokens inside a token of a named document are those of one of its runs. -/
theorem Engine.exists_mem_runs_of_tokenize {engine : Engine} {pages : PageSet} {text : String}
    {outer : Token} (member : outer ∈ engine.tokenize pages text) {children : List Token}
    (childrenEq : outer.children = some children) :
    ∃ run ∈ Markdown.Event.runs (Markdown.Event.ofText text), children =
      tokenizeRun text pages engine.rules (SourceUnit.ofEvents text run.events) := by
  have inside : some children ∈ (engine.tokenize pages text).map Token.children :=
    List.mem_map.mpr ⟨outer, member, childrenEq⟩
  unfold tokenize at inside
  rw [HeadingId.map_children_annotate] at inside
  obtain ⟨raw, rawMember, rawChildren⟩ := List.mem_map.mp inside
  exact exists_mem_runs_of_children_eq rawMember rawChildren

theorem Engine.exists_run_of_tokenize {engine : Engine} {pages : PageSet} {text : String}
    {outer : Token} (member : outer ∈ engine.tokenize pages text) {children : List Token}
    (childrenEq : outer.children = some children) :
    ∃ events, children =
      tokenizeRun text pages engine.rules (SourceUnit.ofEvents text events) := by
  obtain ⟨run, _, tokensEq⟩ := exists_mem_runs_of_tokenize member childrenEq
  exact ⟨run.events, tokensEq⟩

/-- Every link that stands inside another link of a document is one of Markdown. -/
theorem Engine.nested_link_isMarkdown (pages : PageSet) (text : String) {outer : Token}
    (member : outer ∈ Engine.wiki.tokenize pages text) {children : List Token}
    (childrenEq : outer.children = some children) {opener : Token} {inside : List Token}
    (anchor : Token.IsAnchor children opener inside) :
    ∀ token ∈ inside, token.kind = .linkOpen →
      ∃ address title, token = SourceUnit.openingToken (.link address title) := by
  intro token tokenMember isLink
  obtain ⟨events, rfl⟩ := exists_run_of_tokenize member childrenEq
  obtain ⟨sourceUnit, unitMember, content⟩ := isUnitToken_of_isAnchor anchor tokenMember isLink
  exact (SourceUnit.arises_of_mem_ofEvents unitMember).isLink content isLink

/-- A wiki link with a link of Markdown in its label. -/
def linkInLabel : String :=
  "[[a|[x](y)]]"

theorem isAnchor_linkInLabel :
    ∃ outer ∈ Engine.wiki.tokenize ⟨[]⟩ linkInLabel, ∃ children, outer.children = some children ∧
      ∃ opener inside, Token.IsAnchor children opener inside ∧
        inside.map Token.kind = [.linkOpen, .text, .linkClose] := by
  have kinds : ((Engine.wiki.tokenize ⟨[]⟩ linkInLabel)[1]?.bind Token.children).map
      (·.map Token.kind) = some [.linkOpen, .linkOpen, .text, .linkClose, .linkClose] := by
    decide +kernel
  obtain ⟨children, found, kindsEq⟩ := Option.map_eq_some_iff.mp kinds
  obtain ⟨outer, atOne, childrenEq⟩ := Option.bind_eq_some_iff.mp found
  obtain ⟨opener, behind, rfl, opens, behindEq⟩ := List.map_eq_cons_iff.mp kindsEq
  have behindParts : behind.map Token.kind =
      [.linkOpen, .text, .linkClose] ++ [.linkClose] := behindEq
  obtain ⟨inside, closers, rfl, insideEq, closersEq⟩ := List.map_eq_append_iff.mp behindParts
  obtain ⟨closer, rest, rfl, closes, _⟩ := List.map_eq_cons_iff.mp closersEq
  refine ⟨outer, List.mem_of_getElem? atOne, _, childrenEq, opener, inside,
    ⟨opens, ?_, [], closer, rest, closes, rfl⟩, insideEq⟩
  unfold Token.WellNested
  rw [insideEq]
  decide

theorem Engine.nested_link_isMarkdown_linkInLabel :
    ∃ outer ∈ Engine.wiki.tokenize ⟨[]⟩ linkInLabel, ∃ children, outer.children = some children ∧
      ∃ opener inside, Token.IsAnchor children opener inside ∧
        ∀ token ∈ inside, token.kind = .linkOpen →
          ∃ address title, token = SourceUnit.openingToken (.link address title) := by
  obtain ⟨outer, member, children, childrenEq, opener, inside, anchor, _⟩ := isAnchor_linkInLabel
  exact ⟨outer, member, children, childrenEq, opener, inside, anchor,
    nested_link_isMarkdown ⟨[]⟩ linkInLabel member childrenEq anchor⟩

/-- The link of Markdown stands inside the wiki link. -/
theorem Engine.nested_link_linkInLabel :
    ∃ outer ∈ Engine.wiki.tokenize ⟨[]⟩ linkInLabel, ∃ children, outer.children = some children ∧
      ∃ opener inside, Token.IsAnchor children opener inside ∧
        ∃ token ∈ inside, token.kind = .linkOpen := by
  obtain ⟨outer, member, children, childrenEq, opener, inside, anchor, kinds⟩ :=
    isAnchor_linkInLabel
  obtain ⟨token, rest, rfl, isLink, _⟩ := List.map_eq_cons_iff.mp kinds
  exact ⟨outer, member, children, childrenEq, opener, _, anchor, token, List.mem_cons_self, isLink⟩

end WikiPress
