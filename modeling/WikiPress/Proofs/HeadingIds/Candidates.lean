import WikiPress.Proofs.HeadingIds

/-!
# Candidates for ids

For a heading without an id there are infinitely many candidates: the slug of its text, and
the slug with each of the numbers from one on.  No two are equal and only finitely many ids
are used, so trying them in order ends, and it ends at the first one that no heading before
has.  Behind the walk all headings have ids, so another walk finds nothing to do.
-/

namespace WikiPress

open Token

/-- An attribute that a token does not have is added behind the others. -/
theorem Token.setAttribute_of_attribute?_eq_none {token : Token} {name : String}
    (missing : token.attribute? name = none) (value : String) :
    token.setAttribute name value =
      { token with attributes := token.attributes ++ [(name, value)] } := by
  have added (attributes : List (String × String)) (missing : attributes.lookup name = none) :
      updateFirst name (fun _ => value) value attributes = attributes ++ [(name, value)] := by
    induction attributes with
    | nil => rfl
    | cons pair rest ih =>
        obtain ⟨other, own⟩ := pair
        rw [List.lookup_cons] at missing
        cases same : name == other with
        | true =>
            rw [same] at missing
            cases missing
        | false =>
            rw [same] at missing
            rw [updateFirst, if_neg (Ne.symm (beq_eq_false_iff_ne.mp same)), ih missing]
            rfl
  unfold setAttribute
  rw [added token.attributes missing]

namespace HeadingId

/-! ## Candidates in order -/

/-- The candidates for the id of a heading, in the order in which they are tried. -/
def candidate (slug : String) : Nat → String
  | 0 => slug
  | number + 1 => numbered slug (number + 1)

theorem numbered_ne_slug (slug : String) (number : Nat) : numbered slug number ≠ slug := by
  intro same
  have joined : slug ++ "-" ++ toString number = slug := same
  have lengths := congrArg (fun id => id.toList.length) joined
  simp only [String.toList_append, List.length_append] at lengths
  have dash : "-".toList.length = 1 := rfl
  omega

theorem candidate_injective (slug : String) : Function.Injective (candidate slug) := by
  intro first second same
  cases first with
  | zero =>
      cases second with
      | zero => rfl
      | succ second => exact absurd same.symm (numbered_ne_slug slug _)
  | succ first =>
      cases second with
      | zero => exact absurd same (numbered_ne_slug slug _)
      | succ second => exact numbered_injective slug same

/-- There are at least as many used ids as candidates that have been refused. -/
theorem le_length_of_refused {used : List String} {slug : String} {count : Nat}
    (refused : ∀ tried < count, candidate slug tried ∈ used) : count ≤ used.length := by
  have subset : (List.range count).map (candidate slug) ⊆ used := by
    intro id member
    obtain ⟨tried, inRange, rfl⟩ := List.mem_map.mp member
    exact refused tried (List.mem_range.mp inRange)
  have distinct : ((List.range count).map (candidate slug)).Nodup :=
    List.nodup_range.map (candidate_injective slug)
  simpa using (List.subperm_of_subset distinct subset).length_le

/-- The id that is made up is the first candidate that is not used. -/
theorem exists_fresh_eq_candidate (used : List String) (slug : String) :
    ∃ number ≤ used.length, fresh used slug = candidate slug number ∧
      candidate slug number ∉ used ∧ ∀ tried < number, candidate slug tried ∈ used := by
  obtain ⟨number, freshEq, refused⟩ : ∃ number, fresh used slug = candidate slug number ∧
      ∀ tried < number, candidate slug tried ∈ used := by
    unfold fresh
    split
    · rename_i taken
      obtain ⟨passed, _, found, takenBefore, _⟩ :=
        exists_firstFree_eq used slug used.length 1
      refine ⟨passed + 1, by rw [found, Nat.add_comm]; rfl, ?_⟩
      intro tried triedLt
      cases tried with
      | zero => exact List.contains_iff_mem.mp taken
      | succ tried =>
          have later := takenBefore tried (Nat.lt_of_succ_lt_succ triedLt)
          rwa [Nat.add_comm] at later
    · exact ⟨0, rfl, nofun⟩
  exact ⟨number, le_length_of_refused refused, freshEq, freshEq ▸ fresh_not_mem used slug, refused⟩

/-! ## Ids of earlier headings -/

/-- The ids of the headings among tokens. -/
def idsOf (tokens : List Token) : List String :=
  (tokens.filter (·.kind = .headingOpen)).filterMap (·.attribute? "id")

theorem idsOf_cons (token : Token) (rest : List Token) :
    idsOf (token :: rest) = idsOf [token] ++ idsOf rest := by
  unfold idsOf
  rw [← List.singleton_append, List.filter_append, List.filterMap_append]

theorem idsOf_singleton (token : Token) :
    idsOf [token] =
      if token.kind = .headingOpen then (token.attribute? "id").toList else [] := by
  unfold idsOf
  by_cases isHeading : token.kind = .headingOpen
  · cases own : token.attribute? "id" <;> simp [isHeading, own]
  · simp [isHeading]

theorem reverse_idsOf_singleton (token : Token) : (idsOf [token]).reverse = idsOf [token] := by
  rw [idsOf_singleton]
  split
  · cases token.attribute? "id" <;> rfl
  · rfl

/-- Behind a token that keeps what it has, its own id is used. -/
theorem annotate_cons_eq_idsOf {token : Token} (named : ¬ IsUnnamed token) (used : List String)
    (rest : List Token) :
    annotate used (token :: rest) = token :: annotate (idsOf [token] ++ used) rest := by
  rw [idsOf_singleton, annotate]
  by_cases isHeading : token.kind = .headingOpen
  · rw [if_pos isHeading, if_pos isHeading]
    cases own : token.attribute? "id" with
    | none => exact absurd ⟨isHeading, own⟩ named
    | some id => rfl
  · rw [if_neg isHeading, if_neg isHeading]
    rfl

/-- Behind every token, the id that it then has is used. -/
theorem exists_annotate_cons_eq_idsOf (used : List String) (token : Token) (rest : List Token) :
    ∃ passed, annotate used (token :: rest) = passed :: annotate (idsOf [passed] ++ used) rest := by
  by_cases unnamed : IsUnnamed token
  · refine ⟨token.setAttribute "id" (fresh used (slugify (headingText rest))), ?_⟩
    have isHeading : (token.setAttribute "id" (fresh used (slugify (headingText rest)))).kind =
        .headingOpen := unnamed.isHeading
    rw [annotate_cons_of_isUnnamed unnamed, idsOf_singleton, if_pos isHeading,
      attribute?_setAttribute]
    rfl
  · exact ⟨token, annotate_cons_eq_idsOf unnamed used rest⟩

/-- The id of a heading that has none is chosen behind those of all headings before it. -/
theorem getElem?_annotate_of_isUnnamed {tokens : List Token} {heading : Token} {index : Nat}
    (found : tokens[index]? = some heading) (unnamed : IsUnnamed heading) (used : List String) :
    (annotate used tokens)[index]? = some (heading.setAttribute "id"
      (fresh ((idsOf ((annotate used tokens).take index)).reverse ++ used)
        (slugify (headingText (tokens.drop (index + 1)))))) := by
  induction tokens generalizing used index with
  | nil => cases found
  | cons first rest ih =>
      cases index with
      | zero =>
          cases found
          rw [annotate_cons_of_isUnnamed unnamed]
          rfl
      | succ index =>
          obtain ⟨passed, walk⟩ := exists_annotate_cons_eq_idsOf used first rest
          rw [walk, List.take_succ_cons, idsOf_cons passed (List.take _ _), List.reverse_append,
            reverse_idsOf_singleton, List.append_assoc]
          exact ih found (idsOf [passed] ++ used)

/-- Where every heading has an id, nothing changes. -/
theorem annotate_eq_self {tokens : List Token} (named : ∀ token ∈ tokens, ¬ IsUnnamed token)
    (used : List String) : annotate used tokens = tokens := by
  induction tokens generalizing used with
  | nil => rfl
  | cons token rest ih =>
      obtain ⟨here, behind⟩ := List.forall_mem_cons.mp named
      rw [annotate_cons_eq_idsOf here, ih behind]

/-! ## The whole walk -/

/-- Every heading without an id gets the first candidate that is not the id of an earlier
heading, behind its other attributes; at most as many candidates are refused as there are
such ids.  Nothing else changes, and a second walk changes nothing at all. -/
theorem annotate_takes_first_candidate (tokens : List Token) :
    (annotate [] tokens).length = tokens.length ∧
      (∀ index token, tokens[index]? = some token →
        if token.kind = .headingOpen ∧ token.attribute? "id" = none then
          let earlier := idsOf ((annotate [] tokens).take index)
          let slug := slugify (headingText (tokens.drop (index + 1)))
          ∃ number ≤ earlier.length,
            (annotate [] tokens)[index]? = some { token with
              attributes := token.attributes ++ [("id", candidate slug number)] } ∧
            candidate slug number ∉ earlier ∧
            ∀ tried < number, candidate slug tried ∈ earlier
        else (annotate [] tokens)[index]? = some token) ∧
      annotate [] (annotate [] tokens) = annotate [] tokens := by
  refine ⟨?_, ?_, ?_⟩
  · have sameKinds := congrArg List.length (map_kind_annotate [] tokens)
    rwa [List.length_map, List.length_map] at sameKinds
  · intro index token found
    split
    · rename_i isUnnamed
      intro earlier slug
      obtain ⟨isHeading, nameless⟩ := isUnnamed
      obtain ⟨number, numberLe, freshEq, free, refused⟩ :=
        exists_fresh_eq_candidate earlier.reverse slug
      have chosen := getElem?_annotate_of_isUnnamed found ⟨isHeading, nameless⟩ []
      rw [List.append_nil, freshEq, setAttribute_of_attribute?_eq_none nameless] at chosen
      simp only [List.length_reverse, List.mem_reverse] at numberLe free refused
      exact ⟨number, numberLe, chosen, free, refused⟩
    · rename_i named
      exact getElem?_annotate_of_not_isUnnamed found
        (fun unnamed => named ⟨unnamed.isHeading, unnamed.nameless⟩) []
  · refine annotate_eq_self (fun token member unnamed => ?_) []
    obtain ⟨id, own⟩ := exists_id_of_mem_annotate [] member unnamed.isHeading
    rw [unnamed.nameless] at own
    cases own

/-- A heading between others, two of which have taken its slug and the first number. -/
def thirdIntro : List Token :=
  let heading := Token.block .headingOpen "h1" .opening
  let text := { Token.ofKind .inline "" .leaf with children := some [Token.ofText "Intro"] }
  let closer := Token.block .headingClose "h1" .closing
  [heading, text, closer, heading.addAttribute "id" "intro-1", text, closer, heading, text, closer]

theorem annotate_takes_first_candidate_thirdIntro :
    thirdIntro[6]? = some (Token.block .headingOpen "h1" .opening) ∧
      idsOf ((annotate [] thirdIntro).take 6) = ["intro", "intro-1"] ∧
      (∃ number ≤ 2, (annotate [] thirdIntro)[6]? = some
        { Token.block .headingOpen "h1" .opening with
          attributes := [("id", candidate "intro" number)] } ∧
        candidate "intro" number ∉ ["intro", "intro-1"] ∧
        ∀ tried < number, candidate "intro" tried ∈ ["intro", "intro-1"]) ∧
      annotate [] (annotate [] thirdIntro) = annotate [] thirdIntro := by
  obtain ⟨_, chosen, again⟩ := annotate_takes_first_candidate thirdIntro
  have earlier : idsOf ((annotate [] thirdIntro).take 6) = ["intro", "intro-1"] := by
    decide +kernel
  have slug : slugify (headingText (thirdIntro.drop 7)) = "intro" := by decide +kernel
  have third := chosen 6 _ rfl
  rw [if_pos ⟨rfl, rfl⟩] at third
  simp only [earlier, slug] at third
  exact ⟨rfl, earlier, third, again⟩

end HeadingId

end WikiPress
