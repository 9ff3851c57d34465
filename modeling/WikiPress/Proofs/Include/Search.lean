import Mathlib.Data.List.TakeWhile
import Mathlib.Tactic.ByContra
import WikiPress.Proofs.Include.Writing

/-!
# What the search for invocations finds

The search walks once from left to right and takes every invocation that it meets as a
whole.  It comes past an invocation exactly if some stretch of the text is one, wherever
that stretch lies: only what stands inside an invocation is never looked at on its own.
-/

namespace WikiPress.Include

/-- An invocation as it is written. -/
def Invocation.write (call : Invocation) : List Char :=
  '{' :: '{' :: (call.name ++ writeClosing call.arguments)

/-- Whether an invocation can be written, and read back. -/
structure Invocation.IsSound (call : Invocation) : Prop where
  isName : IsName call.name
  isArgument : ∀ text ∈ call.arguments, ∀ char ∈ text, isArgumentChar char = true

/-- Whether some stretch of a text is an invocation. -/
def HoldsInvocation (text : String) : Prop :=
  ∃ call : Invocation, call.IsSound ∧ call.write <:+: text.toList

/-- What stands in a text without invocations has none. -/
theorem HoldsInvocation.of_infix {text whole : String} (inside : text.toList <:+: whole.toList)
    (holds : HoldsInvocation text) : HoldsInvocation whole := by
  obtain ⟨call, sound, written⟩ := holds
  exact ⟨call, sound, written.trans inside⟩

/-! ## One reading -/

theorem of_closing?_eq_some {chars rest : List Char} {text : Option (List Char)}
    (found : closing? chars = some (text, rest)) :
    chars = writeClosing text ++ rest ∧
      ∀ inside ∈ text, ∀ char ∈ inside, isArgumentChar char = true := by
  unfold closing? at found
  split at found
  · cases found
    exact ⟨rfl, nofun⟩
  · rename_i inner
    split at found
    · rename_i after dropped
      cases found
      have parts := List.takeWhile_append_dropWhile (p := isArgumentChar) (l := inner)
      rw [dropped] at parts
      constructor
      · rw [writeClosing, List.cons_append, List.append_assoc]
        exact congrArg ('|' :: ·) parts.symm
      · rintro _ ⟨⟩ char member
        exact List.mem_takeWhile_imp member
    · cases found
  · cases found

/-- What is read as an invocation is one as it is written. -/
theorem of_invocation?_eq_some {chars rest : List Char} {call : Invocation}
    (found : invocation? chars = some (call, rest)) :
    call.IsSound ∧ chars = call.write ++ rest := by
  unfold invocation? at found
  split at found
  · rename_i first inner
    split at found
    · rename_i begins
      obtain ⟨⟨arguments, after⟩, closed, same⟩ := Option.map_eq_some_iff.mp found
      obtain ⟨rfl, rfl⟩ := Prod.mk.inj same
      obtain ⟨closingEq, isArgument⟩ := of_closing?_eq_some closed
      obtain ⟨firstIsName, notHash⟩ := Bool.and_eq_true_iff.mp begins
      constructor
      · refine ⟨⟨List.cons_ne_nil _ _, ?_, ?_⟩, isArgument⟩
        · simpa using notHash
        · rintro char (_ | ⟨_, member⟩)
          · exact firstIsName
          · exact List.mem_takeWhile_imp member
      · have parts := List.takeWhile_append_dropWhile (p := isNameChar) (l := inner)
        rw [closingEq] at parts
        simp only [Invocation.write, List.cons_append, List.append_assoc, parts]
    · cases found
  · cases found

/-- An invocation that is written is read, whatever stands behind it. -/
theorem Invocation.IsSound.invocation?_eq {call : Invocation} (sound : call.IsSound)
    (rest : List Char) : invocation? (call.write ++ rest) = some (call, rest) := by
  have written := invocation?_write sound.isName sound.isArgument rest
  rw [← List.append_assoc] at written
  exact written

/-! ## The whole search -/

/-- Every invocation that the search takes stands in the text. -/
theorem of_call_mem {chars : List Char} {call : Invocation} {source : List Char}
    (member : Piece.call call source ∈ invocationPieces chars) :
    call.IsSound ∧ call.write <:+: chars := by
  fun_induction invocationPieces chars with
  | case1 => cases member
  | case2 char tail found rest isFound ih =>
      obtain ⟨sound, written⟩ := of_invocation?_eq_some isFound
      rw [written]
      rcases List.mem_cons.mp member with same | later
      · cases same
        exact ⟨sound, (List.prefix_append _ _).isInfix⟩
      · obtain ⟨laterSound, inRest⟩ := ih later
        exact ⟨laterSound, inRest.trans (List.suffix_append _ _).isInfix⟩
  | case3 char tail missing ih =>
      rcases List.mem_cons.mp member with same | later
      · cases same
      · obtain ⟨sound, inTail⟩ := ih later
        exact ⟨sound, List.infix_cons inTail⟩

/-- A search that takes no invocation has tried every place of the text. -/
theorem invocation?_eq_none_of_suffix {chars behind : List Char}
    (noCall : ∀ call source, Piece.call call source ∉ invocationPieces chars)
    (isSuffix : behind <:+ chars) : invocation? behind = none := by
  fun_induction invocationPieces chars with
  | case1 =>
      rw [List.suffix_nil.mp isSuffix]
      rfl
  | case2 char tail found rest isFound ih =>
      exact absurd List.mem_cons_self (noCall _ _)
  | case3 char tail missing ih =>
      rcases List.suffix_cons_iff.mp isSuffix with rfl | inTail
      · exact missing
      · exact ih (fun call source member => noCall call source (List.mem_cons_of_mem _ member))
          inTail

theorem exists_call_mem_iff {chars : List Char} :
    (∃ call source, Piece.call call source ∈ invocationPieces chars) ↔
      ∃ call : Invocation, call.IsSound ∧ call.write <:+: chars := by
  constructor
  · rintro ⟨call, source, member⟩
    exact ⟨call, of_call_mem member⟩
  · rintro ⟨call, sound, before, after, charsEq⟩
    by_contra noCall
    push Not at noCall
    have behind : call.write ++ after <:+ chars :=
      ⟨before, (List.append_assoc _ _ _).symm.trans charsEq⟩
    have missing := invocation?_eq_none_of_suffix noCall behind
    cases missing.symm.trans (sound.invocation?_eq after)

/-- A text invokes something exactly if some stretch of it is an invocation. -/
theorem holdsInvocation_iff {text : String} : HoldsInvocation text ↔ invokedNames text ≠ [] := by
  unfold HoldsInvocation
  rw [← exists_call_mem_iff]
  constructor
  · rintro ⟨call, source, member⟩
    exact List.ne_nil_of_mem (name_mem_invokedNames member)
  · intro nonempty
    obtain ⟨name, isInvoked⟩ := List.exists_mem_of_ne_nil _ nonempty
    rw [invokedNames, mem_distinct] at isInvoked
    obtain ⟨call, isCall, -⟩ := List.mem_map.mp isInvoked
    obtain ⟨piece, member, isCall⟩ := List.mem_filterMap.mp isCall
    cases piece with
    | call found source => exact ⟨found, source, member⟩
    | char value => cases isCall

instance (text : String) : Decidable (HoldsInvocation text) :=
  decidable_of_iff _ holdsInvocation_iff.symm

end WikiPress.Include
