import WikiPress.Proofs.Block.Nesting
import WikiPress.Proofs.Inline.RunSource

/-!
# The source of a paragraph

The tokens of a document that is one paragraph are the token of its run between those of the
paragraph.  The content of the run is the source of the paragraph, without the backslashes of
the escapes with which lines begin.
-/

namespace WikiPress

open Markdown
open Markdown.InlineEvent (Tile)
open Text (SplitsAt sliceWithout)

/-! ## Lines -/

namespace Text

/-- Where a line begins with an ASCII character, it is the first one of one of the lines. -/
theorem SplitsAt.exists_line {text : String} {lines : List (List Char)} {start : Nat}
    {before behind : List Char}
    (splits : SplitsAt text start before (['\n'].intercalate lines ++ behind))
    (plain : ∀ line ∈ lines, '\n' ∉ line) {position : Nat} {char : Char}
    (found : byteAt? text position = some char) (ascii : char.toNat < 128) (other : char ≠ '\n')
    (inside : position < start + byteLength (['\n'].intercalate lines))
    (begins : position = start ∨
      ∃ newline, start ≤ newline ∧ position = newline + 1 ∧ byteAt? text newline = some '\n') :
    ∃ line ∈ lines, line.head? = some char := by
  induction lines generalizing start before with
  | nil => simp at inside; omega
  | cons line lines ih =>
      obtain ⟨linePlain, plain⟩ := List.forall_mem_cons.mp plain
      cases lines with
      | nil =>
          rw [List.intercalate_singleton] at splits inside
          rcases begins with rfl | ⟨newline, startLe, rfl, isNewline⟩
          · cases line with
            | nil => simp at inside
            | cons first line =>
                exact ⟨_, List.mem_singleton_self _, (splits.byteAt?_eq_some_iff ascii).mp found⟩
          · have behindLine := splits.le_of_byteAt? linePlain startLe isNewline (by decide)
            omega
      | cons next rest =>
          rw [List.intercalate_cons_cons, List.append_assoc, List.append_assoc] at splits
          rw [List.intercalate_cons_cons, byteLength_append, byteLength_append] at inside
          have length : byteLength ['\n'] = 1 := rfl
          have behindLine := splits.advance
          rcases begins with rfl | ⟨newline, startLe, rfl, isNewline⟩
          · refine ⟨line, List.mem_cons_self, ?_⟩
            have head := (splits.byteAt?_eq_some_iff ascii).mp found
            cases line with
            | nil => exact absurd (Option.some.inj head).symm other
            | cons first line => exact head
          · have reached := splits.le_of_byteAt? linePlain startLe isNewline (by decide)
            obtain ⟨inner, member, head⟩ := ih (behindLine.succ rfl) plain (by omega)
              (by rcases Nat.eq_or_lt_of_le reached with rfl | later
                  · exact .inl rfl
                  · exact .inr ⟨newline, later, rfl, isNewline⟩)
            exact ⟨inner, List.mem_cons_of_mem line member, head⟩

end Text

/-! ## One paragraph -/

theorem BlockBuilder.tokensOf_paragraph (source : String) (rules : List InlineRule)
    (pages : PageSet) (inlines : List InlineEvent) :
    BlockBuilder.tokensOf source rules pages
        (Event.inside .paragraph (inlines.map Event.inline)) =
      [Token.block .paragraphOpen "p" .opening,
        BlockBuilder.runToken { source, rules, pages } inlines,
        Token.block .paragraphClose "p" .closing] := by
  have settled : BlockBuilder.Settled { source, rules, pages } := ⟨rfl, rfl, rfl, rfl, rfl⟩
  have entered : BlockBuilder.enter { source, rules, pages } .paragraph =
      (BlockBuilder.closeHidden { source, rules, pages }).push
        (Token.block .paragraphOpen "p" .opening) := rfl
  unfold BlockBuilder.tokensOf
  rw [BlockBuilder.foldl_textBlock settled inlines rfl entered fun _ => rfl]
  rfl

theorem Engine.tokenize_paragraph (engine : Engine) (pages : PageSet) {text : String}
    {inlines : List InlineEvent}
    (paragraph : Event.ofText text = Event.inside .paragraph (inlines.map .inline)) :
    engine.tokenize pages text =
      [Token.block .paragraphOpen "p" .opening,
        BlockBuilder.runToken { source := text, rules := engine.rules, pages } inlines,
        Token.block .paragraphClose "p" .closing] := by
  unfold Engine.tokenize blockTokens
  rw [paragraph, BlockBuilder.tokensOf_paragraph]
  -- no token of a paragraph is a heading
  rfl

/-- The content of a document that is one paragraph is its source, without the backslashes of
the escapes with which lines begin: these are escapes at the very start or directly behind a
newline, so nothing is left out where no line begins with a backslash. -/
theorem Engine.content_of_paragraph (engine : Engine) (pages : PageSet) {text behind : String}
    {lines : List String} {inlines : List InlineEvent} {escapes : List Nat}
    (plain : ∀ line ∈ lines, '\n' ∉ line.toList)
    (textEq : text = "\n".intercalate lines ++ behind)
    (paragraph : Event.ofText text = Event.inside .paragraph (inlines.map .inline))
    (tile : Tile text true 0 ("\n".intercalate lines).utf8ByteSize inlines escapes) :
    ∃ inline, engine.tokenize pages text =
        [Token.block .paragraphOpen "p" .opening, inline,
          Token.block .paragraphClose "p" .closing] ∧
      inline.kind = .inline ∧
      inline.content = sliceWithout text ("\n".intercalate lines).utf8ByteSize 0 escapes ∧
      (inline.content = "\n".intercalate lines ↔ escapes = []) ∧
      (∀ position ∈ escapes, Text.byteAt? text position = some '\\' ∧
        (position = 0 ∨ ∃ newline, position = newline + 1 ∧
          Text.byteAt? text newline = some '\n')) ∧
      ((∀ line ∈ lines, line.toList.head? ≠ some '\\') →
        inline.content = "\n".intercalate lines) := by
  obtain ⟨atStart, atStop⟩ := tile.boundaries
  have backslashes := tile.areBackslashes
  have splits : SplitsAt text 0 [] (("\n".intercalate lines).toList ++ behind.toList) :=
    ⟨by rw [textEq, String.toList_append]; rfl, rfl⟩
  have whole : Text.slice text 0 ("\n".intercalate lines).utf8ByteSize =
      "\n".intercalate lines := by
    have written := splits.slice_eq
    rwa [Text.byteLength_toList, String.ofList_toList, Nat.zero_add] at written
  have contentEq : (BlockBuilder.runToken { source := text, rules := engine.rules, pages }
      inlines).content = sliceWithout text ("\n".intercalate lines).utf8ByteSize 0 escapes :=
    SourceUnit.runContent_ofEvents tile
  have same := Text.sliceWithout_eq_slice_iff atStart atStop backslashes
  rw [whole] at same
  have begins (position : Nat) (member : position ∈ escapes) : position = 0 ∨
      ∃ newline, position = newline + 1 ∧ Text.byteAt? text newline = some '\n' :=
    (tile.lineBegins_of_mem position member).imp_left And.right
  refine ⟨_, engine.tokenize_paragraph pages paragraph, rfl, contentEq, ?_, ?_, ?_⟩
  · rw [contentEq]
    exact same
  · intro position member
    exact ⟨(backslashes.of_mem position member).2, begins position member⟩
  · intro noBackslash
    rw [contentEq]
    apply same.mpr
    apply List.eq_nil_iff_forall_not_mem.mpr
    intro position member
    obtain ⟨inside, backslash⟩ := backslashes.of_mem position member
    rw [← Text.byteLength_toList, String.toList_intercalate] at inside
    rw [String.toList_intercalate] at splits
    obtain ⟨_, lineMember, head⟩ := splits.exists_line (by simpa using plain) backslash
      (by decide) (by decide) (by rwa [Nat.zero_add]) (by simpa using begins position member)
    obtain ⟨line, inLines, rfl⟩ := List.mem_map.mp lineMember
    exact noBackslash line inLines head

/-- The events of two lines with an escape and an entity in the first one, and emphasis in the
second one. -/
def escapedLine : List InlineEvent :=
  [⟨⟨0, 1⟩, .text "a"⟩, ⟨⟨2, 5⟩, .text "*b "⟩, ⟨⟨5, 10⟩, .text "&"⟩, ⟨⟨10, 11⟩, .softBreak⟩,
    ⟨⟨11, 14⟩, .enter .emphasis⟩, ⟨⟨12, 13⟩, .text "c"⟩, ⟨⟨11, 14⟩, .leave .emphasis⟩]

theorem tile_escapedLine : Tile "a\\*b &amp;\n*c*\n" true 0 14 escapedLine [] :=
  have emphasis : Tile "a\\*b &amp;\n*c*\n" true 11 14
      [⟨⟨11, 14⟩, .enter .emphasis⟩, ⟨⟨12, 13⟩, .text "c"⟩, ⟨⟨11, 14⟩, .leave .emphasis⟩] [] :=
    @Tile.element _ true 11 12 13 14 14 .emphasis [⟨⟨12, 13⟩, .text "c"⟩] [] [] [] nofun
      (by decide +kernel) (by decide +kernel) (by decide)
      (.leaf (by decide +kernel) (by decide) rfl (.nil (by decide +kernel))) (by decide)
      (.nil (by decide +kernel))
  .leaf (by decide +kernel) (by decide) rfl
    (.escape (by decide +kernel) (by decide)
      (.leaf (by decide +kernel) (by decide) rfl
        (.lineBreak (by decide +kernel) emphasis)))

theorem Engine.content_of_paragraph_escapedLine : ∃ inline,
    Engine.wiki.tokenize ⟨[]⟩ "a\\*b &amp;\n*c*\n" =
      [Token.block .paragraphOpen "p" .opening, inline,
        Token.block .paragraphClose "p" .closing] ∧
    inline.content = "a\\*b &amp;\n*c*" := by
  have joined : "\n".intercalate ["a\\*b &amp;", "*c*"] = "a\\*b &amp;\n*c*" := by
    decide +kernel
  have size : ("\n".intercalate ["a\\*b &amp;", "*c*"]).utf8ByteSize = 14 := by
    decide +kernel
  obtain ⟨inline, tokens, _, _, same, _⟩ :=
    @Engine.content_of_paragraph Engine.wiki ⟨[]⟩ "a\\*b &amp;\n*c*\n" "\n"
      ["a\\*b &amp;", "*c*"] escapedLine [] (by decide) (by decide +kernel)
      (by decide +kernel) (by rw [size]; exact tile_escapedLine)
  rw [joined] at same
  exact ⟨inline, tokens, same.mpr rfl⟩

/-- A document with one line, which begins with an escape: its content is another text. -/
theorem Engine.content_of_paragraph_leadingEscape :
    Event.ofText "\\*a" =
      Event.inside .paragraph [.inline { span := ⟨1, 3⟩, kind := .text "*a" }] ∧
    ∃ inline, Engine.wiki.tokenize ⟨[]⟩ "\\*a" =
        [Token.block .paragraphOpen "p" .opening, inline,
          Token.block .paragraphClose "p" .closing] ∧
      inline.content = "*a" ∧ inline.content ≠ "\\*a" := by
  have paragraph : Event.ofText "\\*a" =
      Event.inside .paragraph (List.map Event.inline [⟨⟨1, 3⟩, .text "*a"⟩]) := by
    decide +kernel
  exact ⟨paragraph, _, Engine.wiki.tokenize_paragraph ⟨[]⟩ paragraph, by decide +kernel,
    by decide +kernel⟩

end WikiPress
