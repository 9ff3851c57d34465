import WikiPress.Proofs.Block.TokenKinds
import WikiPress.Proofs.Html.Tags
import WikiPress.Proofs.Token.TextRuns

/-!
# Tags of rendered tokens

A token of a document without raw HTML is written with known tags: its own one, or those
around code, or that of a line break.  All other text is escaped.  What is rendered is thus
written with the tags of its tokens that are not hidden, in order.
-/

namespace WikiPress

/-! ## Tokens as they are built -/

namespace Token

theorem Kind.mem_names (kind : Kind) : kind ∈ Kind.names.map Prod.fst := by
  cases kind <;> decide

/-- What holds of every kind is found by going through the kinds. -/
instance {holds : Kind → Prop} [DecidablePred holds] : Decidable (∀ kind, holds kind) :=
  decidable_of_iff (∀ kind ∈ Kind.names.map Prod.fst, holds kind)
    ⟨fun all kind => all kind kind.mem_names, fun all kind _ => all kind⟩

/-- The HTML tags that tokens of a kind have. -/
def Kind.tagNames : Kind → List String
  | paragraphOpen | paragraphClose => ["p"]
  | headingOpen | headingClose => ["h1", "h2", "h3", "h4", "h5", "h6"]
  | blockquoteOpen | blockquoteClose => ["blockquote"]
  | bulletListOpen | bulletListClose => ["ul"]
  | orderedListOpen | orderedListClose => ["ol"]
  | listItemOpen | listItemClose => ["li"]
  | tableOpen | tableClose => ["table"]
  | theadOpen | theadClose => ["thead"]
  | tbodyOpen | tbodyClose => ["tbody"]
  | trOpen | trClose => ["tr"]
  | thOpen | thClose => ["th"]
  | tdOpen | tdClose => ["td"]
  | hr => ["hr"]
  | codeBlock | fence | codeInline => ["code"]
  | inline | text | htmlBlock | htmlInline => [""]
  | softbreak | hardbreak => ["br"]
  | emOpen | emClose => ["em"]
  | strongOpen | strongClose => ["strong"]
  | strikethroughOpen | strikethroughClose => ["s"]
  | linkOpen | linkClose => ["a"]
  | image => ["img"]

/-- Whether a token of a kind is written as its tag, and as nothing else. -/
def Kind.isTag (kind : Kind) : Bool :=
  kind.role ≠ .neutral || kind = .hr || kind = .image

/-- A token as it is built: it has a tag of its kind and says what its kind means for the
nesting, the names of its attributes are plain words, and it is hidden only if it opens or
closes something. -/
structure IsBuilt (token : Token) : Prop where
  tag_mem : token.tag ∈ token.kind.tagNames
  nesting_eq : token.nesting = token.kind.role.nesting
  words : ∀ pair ∈ token.attributes, Html.IsWord pair.1
  hidden : token.isHidden = true → token.kind.role ≠ .neutral

instance (token : Token) : Decidable token.IsBuilt :=
  decidable_of_iff (token.tag ∈ token.kind.tagNames ∧ token.nesting = token.kind.role.nesting ∧
      (∀ pair ∈ token.attributes, Html.IsWord pair.1) ∧
        (token.isHidden = true → token.kind.role ≠ .neutral))
    ⟨fun ⟨tag, nesting, words, hidden⟩ => ⟨tag, nesting, words, hidden⟩,
      fun ⟨tag, nesting, words, hidden⟩ => ⟨tag, nesting, words, hidden⟩⟩

end Token

namespace Html

open Text

/-- A document as it is built: block-level tokens, with inline tokens as their children. -/
structure IsDocument (tokens : List Token) : Prop where
  blocks : ∀ token ∈ tokens, token.kind.isBlockLevel = true ∧ token.IsBuilt
  inlines : ∀ token ∈ tokens, ∀ child ∈ token.children.getD [],
    child.kind.isBlockLevel = false ∧ child.IsBuilt

instance (tokens : List Token) : Decidable (IsDocument tokens) :=
  decidable_of_iff ((∀ token ∈ tokens, token.kind.isBlockLevel = true ∧ token.IsBuilt) ∧
      ∀ token ∈ tokens, ∀ child ∈ token.children.getD [],
        child.kind.isBlockLevel = false ∧ child.IsBuilt)
    ⟨fun ⟨blocks, inlines⟩ => ⟨blocks, inlines⟩, fun ⟨blocks, inlines⟩ => ⟨blocks, inlines⟩⟩

/-- A document without raw HTML. -/
def HasNoHtml (tokens : List Token) : Prop :=
  ∀ token ∈ tokens, token.kind ≠ .htmlBlock ∧
    ∀ child ∈ token.children.getD [], child.kind ≠ .htmlInline

instance (tokens : List Token) : Decidable (HasNoHtml tokens) :=
  inferInstanceAs (Decidable (∀ token ∈ tokens, _ ∧ ∀ child ∈ token.children.getD [], _))

/-! ## Tags of tokens -/

/-- The class for the language of a fenced block, if its opening line names one. -/
def languageClass (info : String) : List (String × String) :=
  match whiteSpaceWords info with
  | [] => []
  | language :: _ => [("class", "language-" ++ language)]

/-- The tags around code in a block of its own. -/
def codeTags (attributes : List (String × String)) : List Tag :=
  [{ name := "pre" }, { name := "code", attributes },
    { name := "code", isClosing := true }, { name := "pre", isClosing := true }]

/-- The tag that a token names itself. -/
def ownTag (token : Token) : Tag where
  name := token.tag
  isClosing := token.nesting = .closing
  attributes := token.attributes

/-- The tags that a token is written with if it is not hidden. -/
def tokenTags (token : Token) : List Tag :=
  match token.kind with
  | .inline | .text | .softbreak | .htmlBlock | .htmlInline => []
  | .hardbreak => [{ name := "br" }]
  | .codeInline =>
    [{ name := "code", attributes := token.attributes }, { name := "code", isClosing := true }]
  | .codeBlock => codeTags []
  | .fence => codeTags (languageClass token.info)
  | _ => [ownTag token]

/-- The tokens of a document that are not hidden, in order.  In the place of running text
stand the tokens inside it. -/
def shownTokens (tokens : List Token) : List Token :=
  (tokens.flatMap fun token =>
    if token.kind = .inline then token.children.getD [] else [token]).filter (!·.isHidden)

/-- The tags of a document. -/
def tagsOf (tokens : List Token) : List Tag :=
  (shownTokens tokens).flatMap tokenTags

/-- The tags of a token, none if it is hidden. -/
def shownTags (token : Token) : List Tag :=
  if token.isHidden then [] else tokenTags token

/-- The tags of a token of the block structure, or those inside running text. -/
def blockTags (token : Token) : List Tag :=
  if token.kind = .inline then (token.children.getD []).flatMap shownTags else shownTags token

theorem flatMap_filter_shown (tokens : List Token) :
    (tokens.filter (!·.isHidden)).flatMap tokenTags = tokens.flatMap shownTags := by
  induction tokens with
  | nil => rfl
  | cons token tokens ih =>
      rw [List.filter_cons, List.flatMap_cons, ← ih]
      cases hidden : token.isHidden <;> simp [shownTags, hidden]

theorem tagsOf_eq_flatMap (tokens : List Token) : tagsOf tokens = tokens.flatMap blockTags := by
  unfold tagsOf shownTokens
  rw [flatMap_filter_shown, List.flatMap_assoc]
  refine List.flatMap_congr fun token _ => ?_
  unfold blockTags
  split
  · rfl
  · exact List.flatMap_singleton _ _

/-! ## One tag -/

variable {token : Token}

theorem isWord_of_mem_tagNames :
    ∀ kind : Token.Kind, kind.isTag = true → ∀ name ∈ kind.tagNames, IsWord name := by
  decide +kernel

theorem toList_attributes (words : ∀ pair ∈ token.attributes, IsWord pair.1) :
    (attributes token).toList = attributeChars token.attributes := by
  unfold attributes attributeChars
  rw [String.toList_join, List.flatMap_map]
  refine List.flatMap_congr fun pair member => ?_
  have plain : escape pair.1 = pair.1 := by
    refine escape_of_plain fun char inside => ?_
    have isName := (words pair member).chars char inside
    refine ⟨?_, ?_, ?_, ?_⟩ <;> rintro rfl <;> cases isName
  simp [plain]

theorem tokenTags_of_isTag (isTag : token.kind.isTag = true) :
    tokenTags token = [ownTag token] := by
  unfold tokenTags
  split
  case h_10 => rfl
  all_goals
    rename_i kindEq
    rw [kindEq] at isTag
    cases isTag

theorem isPlain_ownTag (built : token.IsBuilt) (isTag : token.kind.isTag = true) :
    (ownTag token).IsPlain :=
  ⟨isWord_of_mem_tagNames token.kind isTag _ built.tag_mem, built.words⟩

/-- The tag of a token stands between line breaks at most. -/
theorem exists_toList_tag (words : ∀ pair ∈ token.attributes, IsWord pair.1)
    (shown : token.isHidden = false) (afterHidden : Bool) (next : Option Token) :
    ∃ front back, (tag afterHidden token next).toList = front ++ ((ownTag token).chars ++ back) ∧
      (front = [] ∨ front = ['\n']) ∧ (back = [] ∨ back = ['\n']) := by
  refine ⟨if token.isBlock && token.nesting ≠ .closing && afterHidden then ['\n'] else [],
    if endsLine token next then ['\n'] else [], ?_, ?_, ?_⟩
  · have opens : "<".toList = ['<'] := rfl
    have closes : "</".toList = ['<', '/'] := rfl
    have ends : ">".toList = ['>'] := rfl
    have endsLine : ">\n".toList = ['>', '\n'] := rfl
    have newline : "\n".toList = ['\n'] := rfl
    unfold tag Tag.chars Tag.inner ownTag
    rw [shown, if_neg Bool.false_ne_true]
    simp only [String.toList_append, apply_ite String.toList, toList_attributes words, opens,
      closes, ends, endsLine, newline, String.toList_empty]
    by_cases closing : token.nesting = .closing <;>
      cases Html.endsLine token next <;> simp [closing]
  · split <;> simp
  · split <;> simp

theorem shownTags_of_neutral (built : token.IsBuilt) (neutral : token.kind.role = .neutral) :
    shownTags token = tokenTags token := by
  have shown : ¬ token.isHidden = true := fun hidden => built.hidden hidden neutral
  exact if_neg shown

theorem blockTags_of_ne (other : token.kind ≠ .inline) : blockTags token = shownTags token :=
  if_neg other

theorem writes_tag (built : token.IsBuilt) (isTag : token.kind.isTag = true) (afterHidden : Bool)
    (next : Option Token) : Writes (tag afterHidden token next).toList (shownTags token) := by
  cases hidden : token.isHidden with
  | true =>
      unfold tag shownTags
      rw [hidden, if_pos rfl, if_pos rfl]
      exact .nil
  | false =>
      have breakWrites {chars : List Char} (isBreak : chars = [] ∨ chars = ['\n']) :
          Writes chars [] := by
        rcases isBreak with rfl | rfl <;> exact .of_plain (by decide) (by decide)
      obtain ⟨front, back, written, frontBreak, backBreak⟩ :=
        exists_toList_tag built.words hidden afterHidden next
      unfold shownTags
      rw [written, hidden, if_neg Bool.false_ne_true, tokenTags_of_isTag isTag]
      exact (breakWrites frontBreak).append
        ((Writes.of_isPlain (isPlain_ownTag built isTag)).append (breakWrites backBreak))

/-! ## Code -/

theorem isWord_code : IsWord "code" := by
  decide

theorem isWord_pre : IsWord "pre" := by
  decide

/-- Code between its tags. -/
def codeChars (attributes : List (String × String)) (content : String) : List Char :=
  ['<', 'c', 'o', 'd', 'e'] ++ (attributeChars attributes ++ '>' ::
    ((escape content).toList ++ ['<', '/', 'c', 'o', 'd', 'e', '>']))

theorem writes_codeChars {attributes : List (String × String)}
    (words : ∀ pair ∈ attributes, IsWord pair.1) (content : String) :
    Writes (codeChars attributes content)
      [{ name := "code", attributes }, { name := "code", isClosing := true }] := by
  have opener : Tag.IsPlain { name := "code", attributes } := ⟨isWord_code, words⟩
  have closer : Tag.IsPlain { name := "code", isClosing := true } := ⟨isWord_code, nofun⟩
  have written := (Writes.of_isPlain opener).append
    ((Writes.escape content).append (.of_isPlain closer))
  have code : "code".toList = ['c', 'o', 'd', 'e'] := rfl
  simpa [codeChars, Tag.chars, Tag.inner, attributeChars, code] using written

/-- Code in a block of its own. -/
def codeBlockChars (attributes : List (String × String)) (content : String) : List Char :=
  ['<', 'p', 'r', 'e', '>'] ++ (codeChars attributes content ++
    ['<', '/', 'p', 'r', 'e', '>', '\n'])

theorem writes_codeBlockChars {attributes : List (String × String)}
    (words : ∀ pair ∈ attributes, IsWord pair.1) (content : String) :
    Writes (codeBlockChars attributes content) (codeTags attributes) := by
  have opener : Tag.IsPlain { name := "pre" } := ⟨isWord_pre, nofun⟩
  have closer : Tag.IsPlain { name := "pre", isClosing := true } := ⟨isWord_pre, nofun⟩
  have newline : Writes ['\n'] [] := .of_plain (by decide) (by decide)
  have written := ((Writes.of_isPlain opener).append (writes_codeChars words content)).append
    ((Writes.of_isPlain closer).append newline)
  have pre : "pre".toList = ['p', 'r', 'e'] := rfl
  simpa [codeBlockChars, codeTags, Tag.chars, Tag.inner, attributeChars, pre] using written

/-- A word is not empty. -/
theorem ne_empty_of_mem_whiteSpaceWords {text word : String}
    (member : word ∈ whiteSpaceWords text) : word ≠ "" := by
  unfold whiteSpaceWords at member
  obtain ⟨run, _, kept⟩ := List.mem_filterMap.mp member
  split at kept
  · cases kept
  · rename_i notWhite
    cases kept
    rintro empty
    have none : run = [] := by simpa using congrArg String.toList empty
    rw [none] at notWhite
    exact notWhite rfl

theorem words_languageClass (info : String) :
    ∀ pair ∈ languageClass info, IsWord pair.1 := by
  unfold languageClass
  split
  · nofun
  · intro pair member
    have word : IsWord "class" := by decide
    rw [List.mem_singleton.mp member]
    exact word

/-- The language of a fenced block is written as a class. -/
theorem toList_languageClass (info : String) :
    let language := (whiteSpaceWords info).head?.getD ""
    (if language.isEmpty then "" else " class=\"language-" ++ escape language ++ "\"").toList =
      attributeChars (languageClass info) := by
  unfold languageClass
  cases words : whiteSpaceWords info with
  | nil => rfl
  | cons language rest =>
      have notEmpty : ¬ language.isEmpty = true := by
        simpa using ne_empty_of_mem_whiteSpaceWords (words ▸ List.mem_cons_self)
      have opens : " class=\"language-".toList =
          ' ' :: ("class".toList ++ '=' :: '"' :: "language-".toList) := rfl
      have quote : "\"".toList = ['"'] := rfl
      have plain : escape "language-" = "language-" := by decide +kernel
      have escaped : escape ("language-" ++ language) = "language-" ++ escape language := by
        rw [escape_append, plain]
      change (if language.isEmpty then _ else _ : String).toList = _
      rw [if_neg notEmpty]
      simp only [String.toList_append, attributeChars, List.flatMap_cons, List.flatMap_nil,
        List.append_nil, List.append_assoc, escaped, opens, quote, List.cons_append]
      rfl

/-- What stands behind the code of a block. -/
theorem toList_codeEnd : "</code></pre>\n".toList =
    ['<', '/', 'c', 'o', 'd', 'e', '>', '<', '/', 'p', 'r', 'e', '>', '\n'] :=
  rfl

theorem toList_codeBlock (content : String) :
    ("<pre><code>" ++ escape content ++ "</code></pre>\n").toList = codeBlockChars [] content := by
  have opens : "<pre><code>".toList =
      ['<', 'p', 'r', 'e', '>', '<', 'c', 'o', 'd', 'e', '>'] := rfl
  simp [codeBlockChars, codeChars, attributeChars, opens, toList_codeEnd]

theorem toList_fence (token : Token) :
    (fence token).toList = codeBlockChars (languageClass token.info) token.content := by
  have opens : "<pre><code".toList = ['<', 'p', 'r', 'e', '>', '<', 'c', 'o', 'd', 'e'] :=
    rfl
  have ends : ">".toList = ['>'] := rfl
  unfold fence codeBlockChars codeChars
  rw [← toList_languageClass]
  simp [opens, ends, toList_codeEnd]

/-! ## One token -/

theorem isTag_of_inline : ∀ kind : Token.Kind, kind.isBlockLevel = false →
    kind ≠ .text ∧ kind ≠ .codeInline ∧ kind ≠ .htmlInline ∧ kind ≠ .softbreak ∧
      kind ≠ .hardbreak → kind.isTag = true := by
  decide +kernel

theorem isTag_of_block : ∀ kind : Token.Kind, kind.isBlockLevel = true →
    kind ≠ .inline ∧ kind ≠ .codeBlock ∧ kind ≠ .fence ∧ kind ≠ .htmlBlock →
      kind.isTag = true := by
  decide +kernel

theorem writes_inlineToken (built : token.IsBuilt) (isInline : token.kind.isBlockLevel = false)
    (noHtml : token.kind ≠ .htmlInline) (afterHidden : Bool) (next : Option Token) :
    Writes (inlineToken afterHidden token next).toList (shownTags token) := by
  unfold inlineToken
  split
  case h_1 kindEq =>
    rw [shownTags_of_neutral built (by rw [kindEq]; rfl), tokenTags, kindEq]
    exact .escape token.content
  case h_2 kindEq =>
    rw [shownTags_of_neutral built (by rw [kindEq]; rfl), tokenTags, kindEq]
    have opens : "<code".toList = ['<', 'c', 'o', 'd', 'e'] := rfl
    have ends : ">".toList = ['>'] := rfl
    have closes : "</code>".toList = ['<', '/', 'c', 'o', 'd', 'e', '>'] := rfl
    have written := writes_codeChars built.words token.content
    simpa [codeChars, toList_attributes built.words, opens, ends, closes] using written
  case h_3 kindEq => exact absurd kindEq noHtml
  case h_4 kindEq =>
    rw [shownTags_of_neutral built (by rw [kindEq]; rfl), tokenTags, kindEq]
    exact .of_plain (by decide) (by decide)
  case h_5 kindEq =>
    rw [shownTags_of_neutral built (by rw [kindEq]; rfl), tokenTags, kindEq]
    have plain : Tag.IsPlain { name := "br" } := ⟨by decide, nofun⟩
    have newline : Writes ['\n'] [] := .of_plain (by decide) (by decide)
    exact (Writes.of_isPlain plain).append newline
  case h_6 notText notCode notHtml notSoft notHard =>
    have isTag := isTag_of_inline _ isInline ⟨notText, notCode, notHtml, notSoft, notHard⟩
    exact writes_tag built isTag afterHidden next

/-! ## Many tokens -/

/-- The pieces of a list are written with the tags of its tokens. -/
theorem writes_pieces {write : Bool → Token → Option Token → String} {tagsOf : Token → List Tag}
    {tokens : List Token} (writes : ∀ token ∈ tokens, ∀ afterHidden next,
      Writes (write afterHidden token next).toList (tagsOf token)) (afterHidden : Bool) :
    Writes (String.join (pieces write afterHidden tokens)).toList (tokens.flatMap tagsOf) := by
  induction tokens generalizing afterHidden with
  | nil => exact .nil
  | cons token tokens ih =>
      obtain ⟨first, rest⟩ := List.forall_mem_cons.mp writes
      have written := (first afterHidden tokens.head?).append (ih rest token.isHidden)
      simpa [pieces, String.toList_join] using written

theorem writes_renderInline {tokens : List Token}
    (inlines : ∀ token ∈ tokens, token.kind.isBlockLevel = false ∧ token.IsBuilt)
    (noHtml : ∀ token ∈ tokens, token.kind ≠ .htmlInline) :
    Writes (renderInline tokens).toList (tokens.flatMap shownTags) :=
  writes_pieces (fun token member afterHidden next =>
    writes_inlineToken (inlines token member).2 (inlines token member).1 (noHtml token member)
      afterHidden next) false

theorem writes_blockToken (built : token.IsBuilt) (isBlock : token.kind.isBlockLevel = true)
    (inlines : ∀ child ∈ token.children.getD [], child.kind.isBlockLevel = false ∧ child.IsBuilt)
    (noHtml : token.kind ≠ .htmlBlock ∧ ∀ child ∈ token.children.getD [], child.kind ≠ .htmlInline)
    (afterHidden : Bool) (next : Option Token) :
    Writes (blockToken afterHidden token next).toList (blockTags token) := by
  unfold blockToken
  split
  case h_1 kindEq =>
    rw [blockTags, if_pos kindEq]
    exact writes_renderInline inlines noHtml.2
  case h_2 kindEq =>
    have tags : blockTags token = codeTags [] := by
      rw [blockTags_of_ne (by rw [kindEq]; nofun),
        shownTags_of_neutral built (by rw [kindEq]; rfl), tokenTags, kindEq]
    rw [toList_codeBlock, tags]
    exact writes_codeBlockChars (List.forall_mem_nil _) token.content
  case h_3 kindEq =>
    have tags : blockTags token = codeTags (languageClass token.info) := by
      rw [blockTags_of_ne (by rw [kindEq]; nofun),
        shownTags_of_neutral built (by rw [kindEq]; rfl), tokenTags, kindEq]
    rw [toList_fence, tags]
    exact writes_codeBlockChars (words_languageClass token.info) token.content
  case h_4 kindEq => exact absurd kindEq noHtml.1
  case h_5 notInline notCode notFence notHtml =>
    rw [blockTags_of_ne notInline]
    have isTag := isTag_of_block _ isBlock ⟨notInline, notCode, notFence, notHtml⟩
    exact writes_tag built isTag afterHidden next

/-- A document is written with the tags of its tokens. -/
theorem writes_render {tokens : List Token} (built : IsDocument tokens)
    (noHtml : HasNoHtml tokens) : Writes (render tokens).toList (tagsOf tokens) := by
  rw [tagsOf_eq_flatMap]
  exact writes_pieces (fun token member => writes_blockToken (built.blocks token member).2
    (built.blocks token member).1 (built.inlines token member) (noHtml token member)) false

end Html

end WikiPress
