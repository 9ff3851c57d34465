import Mathlib.Data.List.Nodup
import Mathlib.Data.List.Perm.Subperm
import WikiPress.Engine

/-!
# Ids of headings

The ids of a document are given in one walk from its first heading to its last.  An id that
is made up is none of those before it, so it can come again only behind it, and there only
where the writer of the document asks for it.
-/

namespace WikiPress

open Token

/-! ## Attributes -/

namespace Token

@[simp]
theorem lookup_updateFirst_self (name : String) (change : String → String) (initial : String)
    (attributes : List (String × String)) :
    (updateFirst name change initial attributes).lookup name =
      some ((attributes.lookup name).elim initial change) := by
  induction attributes with
  | nil => simp [updateFirst]
  | cons pair rest ih =>
      obtain ⟨other, value⟩ := pair
      unfold updateFirst
      split
      · rename_i same
        subst same
        simp
      · rename_i differs
        have apart : (name == other) = false := beq_false_of_ne (Ne.symm differs)
        simp only [List.lookup_cons, apart]
        exact ih

theorem lookup_updateFirst_of_ne {name other : String} (differs : other ≠ name)
    (change : String → String) (initial : String) (attributes : List (String × String)) :
    (updateFirst name change initial attributes).lookup other = attributes.lookup other := by
  have apart : (other == name) = false := beq_false_of_ne differs
  induction attributes with
  | nil => simp [updateFirst, apart]
  | cons pair rest ih =>
      obtain ⟨first, value⟩ := pair
      unfold updateFirst
      split
      · rename_i same
        subst same
        simp only [List.lookup_cons, apart]
      · simp only [List.lookup_cons, ih]

@[simp]
theorem attribute?_setAttribute (token : Token) (name value : String) :
    (token.setAttribute name value).attribute? name = some value := by
  unfold attribute? setAttribute
  rw [lookup_updateFirst_self]
  cases token.attributes.lookup name <;> rfl

theorem attribute?_joinAttribute_of_ne (token : Token) {name other : String}
    (differs : other ≠ name) (value : String) :
    (token.joinAttribute name value).attribute? other = token.attribute? other :=
  lookup_updateFirst_of_ne differs _ _ _

end Token

/-- Before ids are given, a heading has the id that is written behind it. -/
@[simp]
theorem BlockBuilder.attribute?_headingToken (level : Nat)
    (attributes : Markdown.HeadingAttributes) :
    (headingToken level attributes).attribute? "id" = attributes.id := by
  have behindClasses (classes : List String) (token : Token) :
      (classes.foldl (fun token name => token.joinAttribute "class" name) token).attribute? "id" =
        token.attribute? "id" := by
    induction classes generalizing token with
    | nil => rfl
    | cons name classes ih =>
        rw [List.foldl_cons, ih, attribute?_joinAttribute_of_ne _ (by decide)]
  unfold headingToken
  simp only
  rw [behindClasses]
  cases attributes.id <;> rfl

namespace HeadingId

/-! ## Free ids -/

theorem numbered_injective (slug : String) : Function.Injective (numbered slug) := by
  intro first second same
  unfold numbered at same
  have lists := congrArg String.toList same
  simp only [String.toList_append, List.append_assoc] at lists
  have digits := List.append_cancel_left (List.append_cancel_left lists)
  have numbers := congrArg (fun chars => Nat.ofDigitChars 10 chars 0) digits
  simpa [Nat.toString_eq_ofList_toDigits] using numbers

/-- The search passes over numbers that are taken and stops at one that is free, unless it
is out of fuel. -/
theorem exists_firstFree_eq (used : List String) (slug : String) (fuel number : Nat) :
    ∃ passed ≤ fuel, firstFree used slug fuel number = numbered slug (number + passed) ∧
      (∀ count < passed, numbered slug (number + count) ∈ used) ∧
      (passed < fuel → numbered slug (number + passed) ∉ used) := by
  induction fuel generalizing number with
  | zero => exact ⟨0, Nat.le_refl 0, rfl, nofun, nofun⟩
  | succ fuel ih =>
      unfold firstFree
      split
      · rename_i taken
        obtain ⟨passed, passedLe, found, takenBefore, free⟩ := ih (number + 1)
        rw [Nat.add_assoc, Nat.add_comm 1] at found free
        refine ⟨passed + 1, Nat.succ_le_succ passedLe, found, ?_, fun more => free (by omega)⟩
        intro count countLt
        cases count with
        | zero => exact List.contains_iff_mem.mp taken
        | succ count =>
            have later := takenBefore count (Nat.lt_of_succ_lt_succ countLt)
            rwa [Nat.add_assoc, Nat.add_comm 1] at later
      · rename_i free
        exact ⟨0, Nat.zero_le _, rfl, nofun,
          fun _ => fun taken => free (List.contains_iff_mem.mpr taken)⟩

/-- Not all of one more numbers than there are used ids can be taken. -/
theorem firstFree_not_mem (used : List String) (slug : String) (number : Nat) :
    firstFree used slug used.length number ∉ used := by
  obtain ⟨passed, passedLe, found, takenBefore, free⟩ :=
    exists_firstFree_eq used slug used.length number
  rw [found]
  rcases Nat.lt_or_eq_of_le passedLe with inTime | outOfFuel
  · exact free inTime
  · intro taken
    have subset : (List.range (passed + 1)).map (fun count => numbered slug (number + count)) ⊆
        used := by
      intro id member
      obtain ⟨count, inRange, rfl⟩ := List.mem_map.mp member
      rcases Nat.lt_or_eq_of_le (Nat.lt_succ_iff.mp (List.mem_range.mp inRange)) with
        before | rfl
      · exact takenBefore count before
      · exact taken
    have distinct : ((List.range (passed + 1)).map
        (fun count => numbered slug (number + count))).Nodup :=
      List.Nodup.map (fun _ _ same => Nat.add_left_cancel (numbered_injective slug same))
        List.nodup_range
    have tooMany := (List.subperm_of_subset distinct subset).length_le
    rw [List.length_map, List.length_range] at tooMany
    omega

/-- An id that is made up is not used. -/
theorem fresh_not_mem (used : List String) (slug : String) : fresh used slug ∉ used := by
  unfold fresh
  split
  · exact firstFree_not_mem used slug 1
  · rename_i free
    exact fun taken => free (List.contains_iff_mem.mpr taken)

/-! ## The walk -/

/-- The heading has no id of its own. -/
structure IsUnnamed (token : Token) : Prop where
  isHeading : token.kind = .headingOpen
  nameless : token.attribute? "id" = none

theorem annotate_cons_of_isUnnamed {token : Token} (unnamed : IsUnnamed token)
    (used : List String) (rest : List Token) :
    annotate used (token :: rest) =
      token.setAttribute "id" (fresh used (slugify (headingText rest))) ::
        annotate (fresh used (slugify (headingText rest)) :: used) rest := by
  rw [annotate, if_pos unnamed.isHeading, unnamed.nameless]

/-- Whatever has an id or needs none stays, and its id counts as used from there on. -/
theorem annotate_cons_of_not_isUnnamed {token : Token} (named : ¬ IsUnnamed token)
    (used : List String) (rest : List Token) :
    ∃ more, annotate used (token :: rest) = token :: annotate (more ++ used) rest ∧
      (token.kind = .headingOpen → ∀ id, token.attribute? "id" = some id → id ∈ more) := by
  by_cases isHeading : token.kind = .headingOpen
  · cases own : token.attribute? "id" with
    | none => exact (named ⟨isHeading, own⟩).elim
    | some id =>
        refine ⟨[id], by rw [annotate, if_pos isHeading, own]; rfl, fun _ other same => ?_⟩
        cases same
        exact List.mem_singleton_self id
  · exact ⟨[], by rw [annotate, if_neg isHeading]; rfl, fun same => (isHeading same).elim⟩

/-- Whatever does not depend on the attributes of tokens stays as it is. -/
theorem map_annotate {α : Type} {field : Token → α}
    (keeps : ∀ token id, field (token.setAttribute "id" id) = field token)
    (used : List String) (tokens : List Token) :
    (annotate used tokens).map field = tokens.map field := by
  induction tokens generalizing used with
  | nil => rfl
  | cons token rest ih =>
      by_cases unnamed : IsUnnamed token
      · rw [annotate_cons_of_isUnnamed unnamed, List.map_cons, keeps, ih, List.map_cons]
      · obtain ⟨more, walk, _⟩ := annotate_cons_of_not_isUnnamed unnamed used rest
        rw [walk, List.map_cons, ih, List.map_cons]

@[simp]
theorem map_kind_annotate (used : List String) (tokens : List Token) :
    (annotate used tokens).map Token.kind = tokens.map Token.kind :=
  map_annotate (fun _ _ => rfl) used tokens

@[simp]
theorem map_children_annotate (used : List String) (tokens : List Token) :
    (annotate used tokens).map Token.children = tokens.map Token.children :=
  map_annotate (fun _ _ => rfl) used tokens

/-- A token that has an id or needs none stays as it is. -/
theorem getElem?_annotate_of_not_isUnnamed {tokens : List Token} {token : Token} {index : Nat}
    (found : tokens[index]? = some token) (named : ¬ IsUnnamed token) (used : List String) :
    (annotate used tokens)[index]? = some token := by
  induction tokens generalizing used index with
  | nil => cases found
  | cons first rest ih =>
      cases index with
      | zero =>
          cases found
          obtain ⟨more, walk, _⟩ := annotate_cons_of_not_isUnnamed named used rest
          rw [walk]
          rfl
      | succ index =>
          by_cases unnamed : IsUnnamed first
          · rw [annotate_cons_of_isUnnamed unnamed]
            exact ih found _
          · obtain ⟨more, walk, _⟩ := annotate_cons_of_not_isUnnamed unnamed used rest
            rw [walk]
            exact ih found _

/-- A heading without an id gets one that is neither used before the walk nor the id of a
heading that the walk has passed. -/
theorem exists_id_of_isUnnamed {tokens : List Token} {heading : Token} {index : Nat}
    (found : tokens[index]? = some heading) (unnamed : IsUnnamed heading) (used : List String) :
    ∃ id, (annotate used tokens)[index]? = some (heading.setAttribute "id" id) ∧ id ∉ used ∧
      ∀ earlier < index, ∀ other, (annotate used tokens)[earlier]? = some other →
        other.kind = .headingOpen → other.attribute? "id" ≠ some id := by
  induction tokens generalizing used index with
  | nil => cases found
  | cons first rest ih =>
      cases index with
      | zero =>
          cases found
          exact ⟨fresh used (slugify (headingText rest)),
            by rw [annotate_cons_of_isUnnamed unnamed]; rfl, fresh_not_mem _ _, nofun⟩
      | succ index =>
          by_cases firstUnnamed : IsUnnamed first
          · rw [annotate_cons_of_isUnnamed firstUnnamed]
            generalize fresh used (slugify (headingText rest)) = firstId
            obtain ⟨id, atIndex, free, apart⟩ := ih found (firstId :: used)
            refine ⟨id, atIndex, fun taken => free (List.mem_cons_of_mem _ taken), ?_⟩
            intro earlier earlierLt other otherFound isHeading
            cases earlier with
            | zero =>
                cases otherFound
                rw [attribute?_setAttribute]
                rintro ⟨⟩
                exact free List.mem_cons_self
            | succ earlier =>
                exact apart earlier (Nat.lt_of_succ_lt_succ earlierLt) other otherFound isHeading
          · obtain ⟨more, walk, ownId⟩ :=
              annotate_cons_of_not_isUnnamed firstUnnamed used rest
            rw [walk]
            obtain ⟨id, atIndex, free, apart⟩ := ih found (more ++ used)
            refine ⟨id, atIndex, fun taken => free (List.mem_append_right _ taken), ?_⟩
            intro earlier earlierLt other otherFound isHeading
            cases earlier with
            | zero =>
                cases otherFound
                exact fun same => free (List.mem_append_left _ (ownId isHeading id same))
            | succ earlier =>
                exact apart earlier (Nat.lt_of_succ_lt_succ earlierLt) other otherFound isHeading

/-- Behind the walk, every heading has an id. -/
theorem exists_id_of_mem_annotate {tokens : List Token} {token : Token} (used : List String)
    (member : token ∈ annotate used tokens) (isHeading : token.kind = .headingOpen) :
    ∃ id, token.attribute? "id" = some id := by
  induction tokens generalizing used with
  | nil => cases member
  | cons first rest ih =>
      by_cases unnamed : IsUnnamed first
      · rw [annotate_cons_of_isUnnamed unnamed] at member
        rcases List.mem_cons.mp member with rfl | later
        · exact ⟨_, attribute?_setAttribute _ _ _⟩
        · exact ih _ later
      · obtain ⟨more, walk, _⟩ := annotate_cons_of_not_isUnnamed unnamed used rest
        rw [walk] at member
        rcases List.mem_cons.mp member with rfl | later
        · exact Option.ne_none_iff_exists'.mp fun nameless => unnamed ⟨isHeading, nameless⟩
        · exact ih _ later

/-- The id of a heading that had none is that of another heading exactly if that one stands
behind it and had the id before the walk. -/
theorem exists_id_annotate {tokens : List Token} {heading other : Token} {index place : Nat}
    (found : tokens[index]? = some heading) (unnamed : IsUnnamed heading)
    (otherFound : tokens[place]? = some other) (otherHeading : other.kind = .headingOpen)
    (apart : place ≠ index) (used : List String) :
    ∃ id namedOther, (annotate used tokens)[index]? = some (heading.setAttribute "id" id) ∧
      (annotate used tokens)[place]? = some namedOther ∧
      (namedOther.attribute? "id" = some id ↔ index < place ∧ other.attribute? "id" = some id) := by
  obtain ⟨id, named, _, notBefore⟩ := exists_id_of_isUnnamed found unnamed used
  by_cases otherUnnamed : IsUnnamed other
  · obtain ⟨otherId, otherNamed, _, otherNotBefore⟩ :=
      exists_id_of_isUnnamed otherFound otherUnnamed used
    refine ⟨id, _, named, otherNamed, ?_⟩
    rw [attribute?_setAttribute, otherUnnamed.nameless]
    constructor
    · rintro ⟨⟩
      exfalso
      rcases Nat.lt_or_gt_of_ne apart with before | behind
      · exact notBefore place before _ otherNamed otherHeading (attribute?_setAttribute _ _ _)
      · exact otherNotBefore index behind _ named unnamed.isHeading (attribute?_setAttribute _ _ _)
    · rintro ⟨_, ⟨⟩⟩
  · have kept := getElem?_annotate_of_not_isUnnamed otherFound otherUnnamed used
    refine ⟨id, other, named, kept, ?_⟩
    rcases Nat.lt_or_gt_of_ne apart with before | behind
    · constructor
      · exact fun same => (notBefore place before other kept otherHeading same).elim
      · exact fun later => absurd later.1 (Nat.lt_asymm before)
    · exact ⟨fun same => ⟨behind, same⟩, fun later => later.2⟩

end HeadingId

/-! ## Documents -/

namespace Engine

/-- Every heading of a document that is written without an id gets one, and another heading
has the same id exactly if it stands behind that heading and the id is written with it. -/
theorem generatedId_repeats_iff (engine : Engine) (pages : PageSet) (text : String)
    {heading other : Token} {index place : Nat}
    (found : (blockTokens engine.rules pages text)[index]? = some heading)
    (isHeading : heading.kind = .headingOpen) (nameless : heading.attribute? "id" = none)
    (otherFound : (blockTokens engine.rules pages text)[place]? = some other)
    (otherHeading : other.kind = .headingOpen) (apart : place ≠ index) :
    ∃ id named namedOther, (engine.tokenize pages text)[index]? = some named ∧
      named.attribute? "id" = some id ∧ (engine.tokenize pages text)[place]? = some namedOther ∧
      (namedOther.attribute? "id" = some id ↔
        index < place ∧ other.attribute? "id" = some id) := by
  obtain ⟨id, namedOther, named, otherNamed, sameIff⟩ :=
    HeadingId.exists_id_annotate found ⟨isHeading, nameless⟩ otherFound otherHeading apart []
  exact ⟨id, heading.setAttribute "id" id, namedOther, named, attribute?_setAttribute _ _ _,
    otherNamed, sameIff⟩

/-- A heading without an id before one that is written with the slug of its text. -/
def slugAskedForLater : String :=
  "# Intro\n\n# Other \x7b#intro\x7d\n"

theorem generatedId_repeats_iff_slugAskedForLater :
    ∃ heading other, (blockTokens wiki.rules ⟨[]⟩ slugAskedForLater)[0]? = some heading ∧
      (blockTokens wiki.rules ⟨[]⟩ slugAskedForLater)[3]? = some other ∧
      heading.kind = .headingOpen ∧ heading.attribute? "id" = none ∧
      other.kind = .headingOpen ∧ other.attribute? "id" = some "intro" ∧
      ∃ id named namedOther, (wiki.tokenize ⟨[]⟩ slugAskedForLater)[0]? = some named ∧
        named.attribute? "id" = some id ∧
        (wiki.tokenize ⟨[]⟩ slugAskedForLater)[3]? = some namedOther ∧
        (namedOther.attribute? "id" = some id ↔ 0 < 3 ∧ other.attribute? "id" = some id) := by
  have first : (blockTokens wiki.rules ⟨[]⟩ slugAskedForLater)[0]?.map
      (fun token => (token.kind, token.attribute? "id")) = some (.headingOpen, none) := by
    decide +kernel
  have later : (blockTokens wiki.rules ⟨[]⟩ slugAskedForLater)[3]?.map
      (fun token => (token.kind, token.attribute? "id")) = some (.headingOpen, some "intro") := by
    decide +kernel
  obtain ⟨heading, found, headingEq⟩ := Option.map_eq_some_iff.mp first
  obtain ⟨other, otherFound, otherEq⟩ := Option.map_eq_some_iff.mp later
  obtain ⟨isHeading, nameless⟩ := Prod.ext_iff.mp headingEq
  obtain ⟨otherHeading, own⟩ := Prod.ext_iff.mp otherEq
  exact ⟨heading, other, found, otherFound, isHeading, nameless, otherHeading, own,
    generatedId_repeats_iff wiki ⟨[]⟩ slugAskedForLater found isHeading nameless otherFound
      otherHeading (by decide)⟩

/-- The id that the first heading gets is the one that the second is written with. -/
theorem generatedId_repeats_slugAskedForLater :
    let ids (tokens : List Token) :=
      (tokens.filter (·.kind = .headingOpen)).map (·.attribute? "id")
    ids (blockTokens wiki.rules ⟨[]⟩ slugAskedForLater) = [none, some "intro"] ∧
      ids (wiki.tokenize ⟨[]⟩ slugAskedForLater) = [some "intro", some "intro"] := by
  decide +kernel

end Engine

end WikiPress
