import Mathlib
import WikiPress.Proofs.Call.Recording
import WikiPress.Proofs.Include.Writing
import WikiPress.Proofs.Pipe

/-!
# Rounds of expansion as evaluation

A library gives every name a fragment.  A text is evaluated from the outside in: an
invocation is its fragment, given the arguments of the invocation, and then evaluated in
turn.  Expansion replaces all invocations of a text at once, round after round, and never
looks at the structure of what it inserts.  A round takes one link off every chain of
invocations and does not change what the text evaluates to, so a text is expanded as soon
as its longest chain fits into the budget, and otherwise the budget is spent.
-/

namespace WikiPress.Include

/-! ## Evaluation -/

/-- An invocation with arguments that are written out. -/
def invocationOf (name : List Char) (slots : Option (List Slot)) : Invocation :=
  ⟨name, slots.map writeSlots⟩

/-- The characters that parts stand for, when every invocation stands for its fragment
with the arguments of the invocation. -/
inductive Evaluates (library : String → List Part) : List Part → List Char → Prop where
  | nil : Evaluates library [] []
  | char {parts : List Part} {value : List Char} (char : Char)
      (behind : Evaluates library parts value) :
      Evaluates library (.char char :: parts) (char :: value)
  | call {name : List Char} {slots : Option (List Slot)} {parts : List Part}
      {content value : List Char}
      (inside : Evaluates library
        (fillParts (library (String.ofList name)) (invocationOf name slots).argumentList) content)
      (behind : Evaluates library parts value) :
      Evaluates library (.call name slots :: parts) (content ++ value)

/-- The names of the fragments that parts invoke. -/
def callNames (parts : List Part) : List String :=
  parts.filterMap fun
    | .call name _ => some (String.ofList name)
    | _ => none

/-- Invocations of which each but the first stands in the fragment of the one before. -/
inductive Chain (library : String → List Part) : List Part → List String → Prop where
  | nil (parts : List Part) : Chain library parts []
  | cons {parts : List Part} {name : String} {names : List String}
      (invoked : name ∈ callNames parts) (behind : Chain library (library name) names) :
      Chain library parts (name :: names)

/-- The length of the longest chain of invocations, infinite if there is none. -/
noncomputable def depth (library : String → List Part) (parts : List Part) : ℕ∞ :=
  ⨆ names : {names : List String // Chain library parts names}, (names.val.length : ℕ∞)

/-- Whether the expansion of parts may come to a fragment. -/
def Reaches (library : String → List Part) (parts : List Part) (name : String) : Prop :=
  ∃ names, Chain library parts names ∧ name ∈ names

variable {library : String → List Part}

theorem depth_le_iff {parts : List Part} {bound : Nat} :
    depth library parts ≤ bound ↔
      ∀ names, Chain library parts names → names.length ≤ bound := by
  unfold depth
  rw [iSup_le_iff]
  constructor
  · intro bounded names chain
    exact_mod_cast bounded ⟨names, chain⟩
  · intro bounded names
    exact_mod_cast bounded names.val names.property

theorem lt_depth_iff {parts : List Part} {bound : Nat} :
    bound < depth library parts ↔ ∃ names, Chain library parts names ∧ bound < names.length := by
  rw [← not_le, depth_le_iff]
  push Not
  rfl

theorem Reaches.of_mem {parts : List Part} {name : String} (invoked : name ∈ callNames parts) :
    Reaches library parts name :=
  ⟨[name], .cons invoked (.nil _), List.mem_cons_self⟩

/-- A chain to a fragment goes on with any chain of the fragment. -/
theorem Chain.extend {parts : List Part} {names : List String}
    (chain : Chain library parts names) {name : String} (member : name ∈ names)
    {more : List String} (further : Chain library (library name) more) :
    ∃ longer, Chain library parts longer ∧ more.length < longer.length := by
  induction chain with
  | nil => cases member
  | @cons parts first rest invoked behind ih =>
      rcases List.mem_cons.mp member with rfl | later
      · exact ⟨name :: more, .cons invoked further, by simp⟩
      · obtain ⟨longer, chain, lengthLt⟩ := ih later
        refine ⟨first :: longer, .cons invoked chain, ?_⟩
        rw [List.length_cons]
        omega

/-- A fragment that leads back to itself makes chains of every length. -/
theorem depth_eq_top {parts : List Part} {name : String} (reaches : Reaches library parts name)
    (again : Reaches library (library name) name) : depth library parts = ⊤ := by
  have long (length : Nat) : ∃ names, Chain library (library name) names ∧
      length ≤ names.length := by
    induction length with
    | zero => exact ⟨[], .nil _, Nat.zero_le _⟩
    | succ length ih =>
        obtain ⟨more, further, enough⟩ := ih
        obtain ⟨names, chain, member⟩ := again
        obtain ⟨longer, longerChain, lengthLt⟩ := chain.extend member further
        exact ⟨longer, longerChain, by omega⟩
  rw [ENat.eq_top_iff_forall_gt]
  intro bound
  obtain ⟨more, further, enough⟩ := long bound
  obtain ⟨names, chain, member⟩ := reaches
  obtain ⟨longer, longerChain, lengthLt⟩ := chain.extend member further
  exact lt_depth_iff.mpr ⟨longer, longerChain, by omega⟩

/-! ## Filling keeps texts readable -/

theorem isArgumentChar_of_mem_argumentList {call : Invocation}
    (isArgument : ∀ text ∈ call.arguments, ∀ char ∈ text, isArgumentChar char = true) :
    ∀ argument ∈ call.argumentList, ∀ char ∈ argument.toList, isArgumentChar char = true := by
  intro argument isArgumentOf char member
  unfold Invocation.argumentList at isArgumentOf
  split at isArgumentOf
  · cases isArgumentOf
  · cases isArgumentOf
  · rename_i text _ argumentsEq
    obtain ⟨segment, isSegment, rfl⟩ := List.mem_map.mp isArgumentOf
    rw [String.toList_ofList] at member
    exact isArgument text argumentsEq char
      (Pipe.mem_of_mem_cut isSegment (Pipe.mem_of_mem_unescapeChars member))

theorem isArgumentChar_of_mem_fill {place : Placeholder} (sound : place.IsSound)
    {arguments : List String}
    (isArgument : ∀ argument ∈ arguments, ∀ char ∈ argument.toList,
      isArgumentChar char = true) :
    ∀ char ∈ place.fill arguments, isArgumentChar char = true := by
  intro char member
  unfold Placeholder.fill at member
  split at member
  · rename_i value found
    unfold Placeholder.argument? at found
    split at found
    · split at found
      · exact isArgument value (List.mem_of_getElem? found) char member
      · cases found
    · cases found
  · cases fallback : place.fallback with
    | none =>
        rw [fallback] at member
        cases member
    | some text =>
        rw [fallback] at member
        exact sound.fallback_isArgument text fallback char member

/-- A fragment that is given arguments has no placeholders left. -/
theorem isPlainCall_fillParts {parts : List Part} (wellBraced : IsWellBraced parts)
    {arguments : List String}
    (isArgument : ∀ argument ∈ arguments, ∀ char ∈ argument.toList,
      isArgumentChar char = true) : IsPlainCall (fillParts parts arguments) := by
  intro part member
  obtain ⟨original, originalMember, filled⟩ := List.mem_flatMap.mp member
  have sound := wellBraced original originalMember
  cases original with
  | char value =>
      rw [List.mem_singleton.mp filled]
      exact ⟨sound, trivial⟩
  | place reference =>
      obtain ⟨char, charMember, rfl⟩ := List.mem_map.mp filled
      exact ⟨ne_of_isArgumentChar (isArgumentChar_of_mem_fill sound isArgument char charMember),
        trivial⟩
  | call name slots =>
      rw [List.mem_singleton.mp filled]
      obtain ⟨isName, slotsSound⟩ := sound
      have slotFilled : ∀ inner ∈ slots.map fun inner => inner.flatMap (Slot.fill arguments),
          ∀ slot ∈ inner, slot.IsSound ∧ slot.IsPlain := by
        intro inner innerMember slot slotMember
        obtain ⟨written, writtenMember, rfl⟩ := Option.map_eq_some_iff.mp innerMember
        obtain ⟨source, sourceMember, slotFilled⟩ := List.mem_flatMap.mp slotMember
        have sourceSound := slotsSound written writtenMember source sourceMember
        cases source with
        | char value =>
            rw [List.mem_singleton.mp slotFilled]
            exact ⟨sourceSound, trivial⟩
        | place reference =>
            obtain ⟨char, charMember, rfl⟩ := List.mem_map.mp slotFilled
            exact ⟨isArgumentChar_of_mem_fill sourceSound isArgument char charMember, trivial⟩
      exact ⟨⟨isName, fun inner innerMember slot slotMember =>
        (slotFilled inner innerMember slot slotMember).1⟩, fun inner innerMember slot slotMember =>
        (slotFilled inner innerMember slot slotMember).2⟩

/-- The arguments of an invocation in a text may stand in an invocation again. -/
theorem isArgumentChar_invocationOf {name : List Char} {slots : Option (List Slot)}
    (sound : (Part.call name slots).IsSound) (plain : (Part.call name slots).IsPlain) :
    ∀ argument ∈ (invocationOf name slots).argumentList, ∀ char ∈ argument.toList,
      isArgumentChar char = true := by
  apply isArgumentChar_of_mem_argumentList
  intro text member
  obtain ⟨inner, innerMember, rfl⟩ := Option.map_eq_some_iff.mp member
  exact isArgumentChar_writeSlots (sound.2 inner innerMember) (plain inner innerMember)

/-! ## Rounds -/

/-- What takes the place of a part in a round. -/
def Part.round (library : String → List Part) : Part → List Part
  | .call name slots =>
    fillParts (library (String.ofList name)) (invocationOf name slots).argumentList
  | other => [other]

/-- Parts behind a round, in which every invocation is replaced by its fragment. -/
def roundOf (library : String → List Part) (parts : List Part) : List Part :=
  parts.flatMap (Part.round library)

theorem mem_callNames {name : List Char} {slots : Option (List Slot)} {parts : List Part}
    (member : Part.call name slots ∈ parts) : String.ofList name ∈ callNames parts :=
  List.mem_filterMap.mpr ⟨_, member, rfl⟩

@[simp]
theorem callNames_append (first second : List Part) :
    callNames (first ++ second) = callNames first ++ callNames second :=
  List.filterMap_append

@[simp]
theorem callNames_fillParts (parts : List Part) (arguments : List String) :
    callNames (fillParts parts arguments) = callNames parts := by
  have noCalls (chars : List Char) : callNames (chars.map Part.char) = [] := by
    induction chars with
    | nil => rfl
    | cons char chars ih => exact ih
  induction parts with
  | nil => rfl
  | cons part parts ih =>
      have split : callNames (fillParts (part :: parts) arguments) =
          callNames (part.fill arguments) ++ callNames (fillParts parts arguments) :=
        callNames_append _ _
      rw [split, ih]
      cases part with
      | char value => rfl
      | place reference =>
          rw [Part.fill, noCalls]
          rfl
      | call name slots => rfl

theorem callNames_roundOf (parts : List Part) :
    callNames (roundOf library parts) =
      (callNames parts).flatMap fun name => callNames (library name) := by
  induction parts with
  | nil => rfl
  | cons part parts ih =>
      have split : callNames (roundOf library (part :: parts)) =
          callNames (part.round library) ++ callNames (roundOf library parts) :=
        callNames_append _ _
      rw [split, ih]
      cases part with
      | char value => rfl
      | place reference => rfl
      | call name slots =>
          rw [Part.round, callNames_fillParts]
          rfl

theorem isPlainCall_roundOf {parts : List Part} (plainCall : IsPlainCall parts)
    (wellBraced : ∀ name ∈ callNames parts, IsWellBraced (library name)) :
    IsPlainCall (roundOf library parts) := by
  intro part member
  obtain ⟨original, originalMember, replaced⟩ := List.mem_flatMap.mp member
  obtain ⟨sound, plain⟩ := plainCall original originalMember
  cases original with
  | char value =>
      rw [List.mem_singleton.mp replaced]
      exact ⟨sound, plain⟩
  | place reference => exact absurd plain id
  | call name slots =>
      exact isPlainCall_fillParts (wellBraced _ (mem_callNames originalMember))
        (isArgumentChar_invocationOf sound plain) part replaced

/-- A round takes the first link off every chain. -/
theorem chain_roundOf_iff {parts : List Part} {next : String} {names : List String} :
    Chain library (roundOf library parts) (next :: names) ↔
      ∃ name, Chain library parts (name :: next :: names) := by
  constructor
  · intro chain
    cases chain with
    | cons invoked behind =>
        rw [callNames_roundOf] at invoked
        obtain ⟨name, nameInvoked, inFragment⟩ := List.mem_flatMap.mp invoked
        exact ⟨name, .cons nameInvoked (.cons inFragment behind)⟩
  · rintro ⟨name, chain⟩
    cases chain with
    | cons invoked behind =>
        cases behind with
        | cons inFragment further =>
            refine .cons ?_ further
            rw [callNames_roundOf]
            exact List.mem_flatMap.mpr ⟨name, invoked, inFragment⟩

/-- A round makes the longest chain shorter by one link. -/
theorem depth_roundOf_le_iff {parts : List Part} {bound : Nat} :
    depth library (roundOf library parts) ≤ bound ↔ depth library parts ≤ (bound + 1 : Nat) := by
  rw [depth_le_iff, depth_le_iff]
  constructor
  · intro bounded names chain
    rcases names with _ | ⟨name, _ | ⟨next, names⟩⟩
    · exact Nat.zero_le _
    · simp
    · have shorter := bounded (next :: names) (chain_roundOf_iff.mpr ⟨name, chain⟩)
      rw [List.length_cons]
      omega
  · intro bounded names chain
    rcases names with _ | ⟨next, names⟩
    · exact Nat.zero_le _
    · obtain ⟨name, longer⟩ := chain_roundOf_iff.mp chain
      have fits := bounded _ longer
      rw [List.length_cons] at fits
      omega

theorem Reaches.of_roundOf {parts : List Part} {name : String}
    (reaches : Reaches library (roundOf library parts) name) : Reaches library parts name := by
  obtain ⟨names, chain, member⟩ := reaches
  cases names with
  | nil => cases member
  | cons next names =>
      obtain ⟨first, longer⟩ := chain_roundOf_iff.mp chain
      exact ⟨_, longer, List.mem_cons_of_mem first member⟩

theorem Evaluates.append {first second : List Part} {value more : List Char}
    (evaluates : Evaluates library first value) (behind : Evaluates library second more) :
    Evaluates library (first ++ second) (value ++ more) := by
  induction evaluates with
  | nil => exact behind
  | char char _ ih => exact .char char ih
  | call inside _ _ ih =>
      rw [List.append_assoc]
      exact .call inside ih

theorem Evaluates.of_append {first second : List Part} {value : List Char}
    (evaluates : Evaluates library (first ++ second) value) :
    ∃ content more, value = content ++ more ∧ Evaluates library first content ∧
      Evaluates library second more := by
  induction first generalizing value with
  | nil => exact ⟨[], value, rfl, .nil, evaluates⟩
  | cons part first ih =>
      cases evaluates with
      | char char behind =>
          obtain ⟨content, more, rfl, inFirst, inSecond⟩ := ih behind
          exact ⟨char :: content, more, rfl, .char char inFirst, inSecond⟩
      | call inside behind =>
          obtain ⟨content, more, rfl, inFirst, inSecond⟩ := ih behind
          exact ⟨_, more, (List.append_assoc _ _ _).symm, .call inside inFirst, inSecond⟩

/-- A round does not change what parts evaluate to. -/
theorem evaluates_roundOf_iff {parts : List Part} {value : List Char} :
    Evaluates library (roundOf library parts) value ↔ Evaluates library parts value := by
  induction parts generalizing value with
  | nil => rfl
  | cons part parts ih =>
      cases part with
      | char char =>
          constructor
          · intro evaluates
            cases evaluates with
            | char _ behind => exact .char char (ih.mp behind)
          · intro evaluates
            cases evaluates with
            | char _ behind => exact .char char (ih.mpr behind)
      | place reference => exact ⟨nofun, nofun⟩
      | call name slots =>
          constructor
          · intro evaluates
            obtain ⟨content, more, rfl, inside, behind⟩ := Evaluates.of_append evaluates
            exact .call inside (ih.mp behind)
          · intro evaluates
            cases evaluates with
            | call inside behind => exact inside.append (ih.mpr behind)

/-- Parts without invocations evaluate to themselves. -/
theorem evaluates_iff_of_callNames_eq_nil {parts : List Part} (plainCall : IsPlainCall parts)
    (noCalls : callNames parts = []) {value : List Char} :
    Evaluates library parts value ↔ value = writeParts parts := by
  induction parts generalizing value with
  | nil =>
      constructor
      · intro evaluates
        cases evaluates
        rfl
      · rintro rfl
        exact .nil
  | cons part parts ih =>
      obtain ⟨⟨_, plain⟩, rest⟩ := List.forall_mem_cons.mp plainCall
      cases part with
      | place reference => exact absurd plain id
      | call name slots => cases noCalls
      | char char =>
          have behind {value : List Char} := @ih rest noCalls value
          constructor
          · intro evaluates
            cases evaluates with
            | char _ inside => exact congrArg (char :: ·) (behind.mp inside)
          · rintro rfl
            exact .char char (behind.mpr rfl)

/-! ## Texts -/

@[simp]
theorem toList_textOf (parts : List Part) : (textOf parts).toList = writeParts parts :=
  String.toList_ofList

theorem invokedNames_textOf {parts : List Part} (plainCall : IsPlainCall parts) :
    invokedNames (textOf parts) = distinct (callNames parts) := by
  unfold invokedNames invocations
  rw [toList_textOf, invocationPieces_writeParts plainCall]
  congr 1
  induction parts with
  | nil => rfl
  | cons part parts ih =>
      obtain ⟨⟨_, plain⟩, rest⟩ := List.forall_mem_cons.mp plainCall
      cases part with
      | place reference => exact absurd plain id
      | char value => exact ih rest
      | call name slots => exact congrArg (String.ofList name :: ·) (ih rest)

/-- Whether every fragment that a cache has for a name is the one of the library. -/
def Cache.IsOf (cache : Cache) (library : String → List Part) : Prop :=
  ∀ name fragment, cache.get? name = some fragment → fragment = textOf (library name)

/-- With all fragments at hand, substitution is a round. -/
theorem substitute_textOf {parts : List Part} (plainCall : IsPlainCall parts)
    (wellBraced : ∀ name ∈ callNames parts, IsWellBraced (library name)) {cache : Cache}
    (held : ∀ name ∈ callNames parts, cache.get? name = some (textOf (library name))) :
    substitute cache (textOf parts) = textOf (roundOf library parts) := by
  have rendered : Piece.render (Invocation.expand cache) (parts.flatMap Part.pieces) =
      writeParts (roundOf library parts) := by
    induction parts with
    | nil => rfl
    | cons part parts ih =>
        obtain ⟨⟨_, plain⟩, rest⟩ := List.forall_mem_cons.mp plainCall
        cases part with
        | place reference => exact absurd plain id
        | char value => exact congrArg (value :: ·) (ih rest wellBraced held)
        | call name slots =>
            have first : String.ofList name ∈ callNames (.call name slots :: parts) :=
              mem_callNames List.mem_cons_self
            have behind := ih rest
              (fun other member => wellBraced other (List.mem_cons_of_mem _ member))
              (fun other member => held other (List.mem_cons_of_mem _ member))
            have replaced (source : List Char) :
                Invocation.expand cache (invocationOf name slots) source =
                  writeParts ((Part.call name slots).round library) := by
              unfold Invocation.expand
              have found : cache.get? (String.ofList (invocationOf name slots).name) =
                  some (textOf (library (String.ofList name))) := held _ first
              rw [found]
              simp only [fillPlaceholders_textOf (wellBraced _ first), toList_textOf]
              rfl
            change Invocation.expand cache (invocationOf name slots) _ ++
              Piece.render _ (parts.flatMap Part.pieces) = _
            rw [replaced, behind]
            simp [writeParts, roundOf, List.flatMap_append]
  unfold substitute textOf
  rw [String.toList_ofList, invocationPieces_writeParts plainCall, rendered]

/-! ## Expansion -/

section Expansion

variable {σ : Type} {invariant : σ → Prop} {loader : Loader (StateM σ)}

/-- Whether a loader has the fragment of a name as the library has it. -/
structure Serves (loader : Loader (StateM σ)) (invariant : σ → Prop)
    (library : String → List Part) (name : String) : Prop where
  wellBraced : IsWellBraced (library name)
  yields : Yields invariant (loader.load (fragmentPath name)) (.ok (textOf (library name)))

theorem exists_loadMissing {names : List String}
    (serves : ∀ name ∈ names, Serves loader invariant library name) {cache : Cache}
    (isOf : cache.IsOf library) :
    ∃ loaded, Yields invariant (loadMissing loader names cache) (.ok (), loaded) ∧
      loaded.IsOf library ∧
      (∀ name fragment, cache.get? name = some fragment → loaded.get? name = some fragment) ∧
      ∀ name ∈ names, loaded.get? name = some (textOf (library name)) := by
  induction names generalizing cache with
  | nil => exact ⟨cache, .pure invariant _, isOf, fun _ _ found => found, nofun⟩
  | cons name names ih =>
      obtain ⟨served, rest⟩ := List.forall_mem_cons.mp serves
      by_cases present : cache.contains name = true
      · obtain ⟨fragment, found⟩ := Cache.contains_iff.mp present
        obtain ⟨loaded, yields, loadedIsOf, keeps, holds⟩ := ih rest isOf
        refine ⟨loaded, ?_, loadedIsOf, keeps, List.forall_mem_cons.mpr ⟨?_, holds⟩⟩
        · unfold loadMissing
          rw [if_pos present]
          exact yields
        · rw [← isOf name fragment found]
          exact keeps name fragment found
      · let fragment := textOf (library name)
        have insertedIsOf : (cache.insert name fragment).IsOf library := by
          intro other kept found
          rw [Cache.get?_insert] at found
          split at found
          · rename_i same
            cases found
            rw [same]
          · exact isOf other kept found
        obtain ⟨loaded, yields, loadedIsOf, keeps, holds⟩ := ih rest insertedIsOf
        have absent := Cache.get?_eq_none_of_not_contains present
        refine ⟨loaded, ?_, loadedIsOf, ?_, List.forall_mem_cons.mpr ⟨?_, holds⟩⟩
        · unfold loadMissing
          rw [if_neg present]
          exact served.yields.bind yields
        · intro other kept found
          apply keeps
          rw [Cache.get?_insert, if_neg, found]
          rintro rfl
          rw [absent] at found
          cases found
        · apply keeps
          rw [Cache.get?_insert, if_pos rfl]

/-- What the expansion of parts has to answer with some rounds left of a limit. -/
structure Expands (library : String → List Part) (limit remaining : Nat) (parts : List Part)
    (answer : Except IncludeError String) : Prop where
  evaluates : depth library parts ≤ remaining →
    ∃ value, (∀ other, Evaluates library parts other ↔ other = value) ∧
      answer = .ok (String.ofList value)
  overflows : remaining < depth library parts → answer = .error (.overflow limit)

/-- A text without invocations is its own value, whatever rounds are left. -/
theorem expands_of_callNames_eq_nil {parts : List Part} (plainCall : IsPlainCall parts)
    (noCalls : callNames parts = []) (limit remaining : Nat) :
    Expands library limit remaining parts (.ok (textOf parts)) := by
  refine ⟨fun _ => ⟨writeParts parts, fun _ =>
    evaluates_iff_of_callNames_eq_nil plainCall noCalls, rfl⟩, ?_⟩
  intro deep
  obtain ⟨names, chain, long⟩ := lt_depth_iff.mp deep
  cases chain with
  | nil => cases long
  | cons invoked behind =>
      rw [noCalls] at invoked
      cases invoked

theorem Expands.of_roundOf {limit remaining : Nat} {parts : List Part}
    {answer : Except IncludeError String}
    (expands : Expands library limit remaining (roundOf library parts) answer) :
    Expands library limit (remaining + 1) parts answer := by
  constructor
  · intro shallow
    obtain ⟨value, isValue, answerEq⟩ := expands.evaluates (depth_roundOf_le_iff.mpr shallow)
    exact ⟨value, fun other => evaluates_roundOf_iff.symm.trans (isValue other), answerEq⟩
  · intro deep
    apply expands.overflows
    rw [← not_le] at deep ⊢
    exact fun shallow => deep (depth_roundOf_le_iff.mp shallow)

theorem exists_expandRounds (limit remaining : Nat) {parts : List Part}
    (plainCall : IsPlainCall parts)
    (serves : ∀ name, Reaches library parts name → Serves loader invariant library name)
    {cache : Cache} (isOf : cache.IsOf library) :
    ∃ answer loaded,
      Yields invariant (expandRounds loader limit remaining cache (textOf parts))
        (answer, loaded) ∧
      Expands library limit remaining parts answer := by
  induction remaining generalizing parts cache with
  | zero =>
      unfold expandRounds
      rw [invokedNames_textOf plainCall]
      cases calls : callNames parts with
      | nil =>
          exact ⟨_, cache, .pure invariant _, expands_of_callNames_eq_nil plainCall calls _ _⟩
      | cons name names =>
          have chain : Chain library parts [name] := .cons (by rw [calls]; simp) (.nil _)
          have deep : ((0 : Nat) : ℕ∞) < depth library parts :=
            lt_depth_iff.mpr ⟨[name], chain, by simp⟩
          exact ⟨.error (.overflow limit), cache, .pure invariant _,
            fun shallow => absurd shallow (not_le.mpr deep), fun _ => rfl⟩
  | succ remaining ih =>
      unfold expandRounds
      rw [invokedNames_textOf plainCall]
      cases calls : callNames parts with
      | nil =>
          exact ⟨_, cache, .pure invariant _, expands_of_callNames_eq_nil plainCall calls _ _⟩
      | cons name names =>
          rw [← calls]
          have pending : (distinct (callNames parts)).isEmpty = false := by
            rw [calls]
            rfl
          have served : ∀ name ∈ callNames parts, Serves loader invariant library name :=
            fun name invoked => serves name (.of_mem invoked)
          have wellBraced := fun name invoked => (served name invoked).wellBraced
          obtain ⟨loaded, loads, loadedIsOf, _, held⟩ := exists_loadMissing
            (fun name invoked => served name (mem_distinct.mp invoked)) isOf
          have next := substitute_textOf plainCall wellBraced
            fun name invoked => held name (mem_distinct.mpr invoked)
          obtain ⟨answer, final, expands, isAnswer⟩ := ih
            (isPlainCall_roundOf plainCall wellBraced)
            (fun name reaches => serves name reaches.of_roundOf) loadedIsOf
          refine ⟨answer, final, ?_, isAnswer.of_roundOf⟩
          simp only [pending, Bool.false_eq_true, if_false]
          refine loads.bind ?_
          rw [← next] at expands
          exact expands

/-- Expansion is evaluation within a budget.  A text whose longest chain of invocations
fits into the limit is expanded to the one thing it evaluates to, and any other text
overflows, in particular one that leads to a cycle. -/
theorem expand_evaluates (limit : Nat) {text : List Part} (plainCall : IsPlainCall text)
    (serves : ∀ name, Reaches library text name → Serves loader invariant library name)
    (state : σ) (holds : invariant state) :
    let answer := ((expand loader limit {} (textOf text)).run state).1.1
    (depth library text ≤ limit →
      ∃ value, (∀ other, Evaluates library text other ↔ other = value) ∧
        answer = .ok (String.ofList value)) ∧
    (limit < depth library text → answer = .error (.overflow limit)) ∧
    ∀ name, Reaches library text name → Reaches library (library name) name →
      depth library text = ⊤ := by
  intro answer
  have empty : Cache.IsOf {} library := nofun
  obtain ⟨expected, loaded, yields, expands⟩ :=
    exists_expandRounds limit limit plainCall serves empty
  have answerEq : answer = expected := congrArg Prod.fst (yields state holds).1
  rw [answerEq]
  exact ⟨expands.evaluates, expands.overflows, fun _ reaches again => depth_eq_top reaches again⟩

end Expansion

/-- A library of two fragments; the outer one passes its argument on to the inner one. -/
def quotingLibrary (name : String) : List Part :=
  if name = "outer" then
    [.char '<',
      .call ['i', 'n'] (some [.place ⟨['1'], none⟩, .char '|', .place ⟨['2'], some ['z']⟩]),
      .char '>']
  else
    [.place ⟨['2'], none⟩, .place ⟨['1'], none⟩]

/-- A text that invokes the outer fragment. -/
def quotedText : List Part :=
  [.call ['o', 'u', 't', 'e', 'r'] (some [.char 'x'])]

/-- A loader of the two fragments. -/
def quotingLoader : Loader (StateM Unit) where
  load path := return if path = fragmentPath "outer" then .ok (textOf (quotingLibrary "outer"))
    else if path = fragmentPath "in" then .ok (textOf (quotingLibrary "in"))
    else .error (.notFound path)
  loadBinary path := return .error (.notFound path)
  glob _ := return .ok []

theorem chain_quotedText {names : List String} (chain : Chain quotingLibrary quotedText names) :
    names = [] ∨ names = ["outer"] ∨ names = ["outer", "in"] := by
  cases chain with
  | nil => exact .inl rfl
  | cons invoked behind =>
      have isOuter : _ ∈ ["outer"] := invoked
      cases List.mem_singleton.mp isOuter
      cases behind with
      | nil => exact .inr (.inl rfl)
      | cons inFragment further =>
          have isInner : _ ∈ ["in"] := inFragment
          cases List.mem_singleton.mp isInner
          cases further with
          | nil => exact .inr (.inr rfl)
          | cons inLast =>
              have none : _ ∈ ([] : List String) := inLast
              cases none

theorem depth_quotedText : depth quotingLibrary quotedText = 2 := by
  have inFragment : Chain quotingLibrary (quotingLibrary "outer") ["in"] :=
    .cons (by decide) (.nil _)
  have longest : Chain quotingLibrary quotedText ["outer", "in"] := .cons (by decide) inFragment
  apply le_antisymm
  · refine depth_le_iff.mpr fun names chain => ?_
    rcases chain_quotedText chain with rfl | rfl | rfl <;> decide
  · exact Order.add_one_le_of_lt (lt_depth_iff.mpr ⟨_, longest, Nat.one_lt_two⟩)

theorem expand_evaluates_quotedText :
    IsPlainCall quotedText ∧
      (∀ name, Reaches quotingLibrary quotedText name →
        Serves quotingLoader (fun _ => True) quotingLibrary name) ∧
      ((expand quotingLoader 2 {} (textOf quotedText)).run ()).1.1 = .ok "<zx>" ∧
      ((expand quotingLoader 1 {} (textOf quotedText)).run ()).1.1 = .error (.overflow 1) := by
  have plainCall : IsPlainCall quotedText := by decide +kernel
  have outer : Serves quotingLoader (fun _ => True) quotingLibrary "outer" :=
    ⟨by decide +kernel, fun _ _ => ⟨rfl, trivial⟩⟩
  have inner : Serves quotingLoader (fun _ => True) quotingLibrary "in" :=
    ⟨by decide +kernel, fun _ _ => ⟨rfl, trivial⟩⟩
  have serves : ∀ name, Reaches quotingLibrary quotedText name →
      Serves quotingLoader (fun _ => True) quotingLibrary name := by
    rintro name ⟨names, chain, member⟩
    rcases chain_quotedText chain with rfl | rfl | rfl
    · cases member
    · rw [List.mem_singleton.mp member]
      exact outer
    · rcases List.mem_cons.mp member with rfl | last
      · exact outer
      · rw [List.mem_singleton.mp last]
        exact inner
  refine ⟨plainCall, serves, ?_, ?_⟩
  · obtain ⟨value, isValue, answerEq⟩ :=
      (expand_evaluates 2 plainCall serves () trivial).1 depth_quotedText.le
    have passedOn : Evaluates quotingLibrary
        [.call ['i', 'n'] (some [.char 'x', .char '|', .char 'z']), .char '>']
        (['z', 'x'] ++ ['>']) :=
      .call (.char 'z' (.char 'x' .nil)) (.char '>' .nil)
    have evaluates : Evaluates quotingLibrary quotedText (['<', 'z', 'x', '>'] ++ []) :=
      .call (.char '<' passedOn) .nil
    rw [answerEq, ← (isValue _).mp evaluates]
    rfl
  · refine (expand_evaluates 1 plainCall serves () trivial).2.1 ?_
    rw [depth_quotedText]
    decide

end WikiPress.Include
