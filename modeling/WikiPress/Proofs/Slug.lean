import WikiPress.Slug

/-!
# The characters of a slug

A slug is made of ASCII letters, digits and hyphens, so none of the characters that mean
something in an address or in a path can occur in it.
-/

namespace WikiPress.Slug

open WikiPress.Text

theorem mem_collapse {inRun : Bool} {chars : List Char} {char : Char}
    (member : char ∈ collapse inRun chars) : isAsciiAlphanumeric char = true ∨ char = '-' := by
  induction chars generalizing inRun with
  | nil => cases member
  | cons first chars ih =>
      unfold collapse at member
      split at member
      · rename_i alphanumeric
        rcases List.mem_cons.mp member with rfl | later
        · exact .inl alphanumeric
        · exact ih later
      · split at member
        · exact ih member
        · rcases List.mem_cons.mp member with rfl | later
          · exact .inr rfl
          · exact ih later

theorem isAsciiAlphanumeric_lowerAscii {char : Char}
    (alphanumeric : isAsciiAlphanumeric char = true) :
    isAsciiAlphanumeric (lowerAscii char) = true := by
  unfold lowerAscii
  split
  · rename_i isUpper
    obtain ⟨first, last⟩ := Bool.and_eq_true_iff.mp isUpper
    have atLeast : 65 ≤ char.toNat := of_decide_eq_true first
    have atMost : char.toNat ≤ 90 := of_decide_eq_true last
    have valid : Nat.isValidChar (char.toNat + 32) := .inl (by omega)
    have code : (Char.ofNat (char.toNat + 32)).toNat = char.toNat + 32 := by
      rw [Char.ofNat, dif_pos valid]
      rfl
    have fromA : 97 ≤ (Char.ofNat (char.toNat + 32)).toNat := by omega
    have toZ : (Char.ofNat (char.toNat + 32)).toNat ≤ 122 := by omega
    unfold isAsciiAlphanumeric isAsciiLetter
    rw [Bool.or_eq_true_iff, Bool.or_eq_true_iff, Bool.and_eq_true_iff]
    exact .inl (.inl ⟨decide_eq_true fromA, decide_eq_true toZ⟩)
  · exact alphanumeric

/-- A slug has only letters, digits and hyphens. -/
theorem mem_slugify {name : String} {char : Char} (member : char ∈ (slugify name).toList) :
    isAsciiAlphanumeric char = true ∨ char = '-' := by
  unfold slugify trimHyphens at member
  rw [String.toList_ofList] at member
  obtain ⟨raw, inSlug, rfl⟩ := List.mem_map.mp member
  have collapsed : raw ∈ collapse false name.toList := by
    have trimmed := (List.dropWhile_sublist _).mem (List.mem_reverse.mp inSlug)
    exact (List.dropWhile_sublist _).mem (List.mem_reverse.mp trimmed)
  rcases mem_collapse collapsed with alphanumeric | rfl
  · exact .inl (isAsciiAlphanumeric_lowerAscii alphanumeric)
  · exact .inr (by decide)

/-- A character that is neither of these does not occur in a slug. -/
theorem not_mem_slugify {char : Char} (other : isAsciiAlphanumeric char = false)
    (notHyphen : char ≠ '-') (name : String) : char ∉ (slugify name).toList := by
  intro member
  rcases mem_slugify member with alphanumeric | rfl
  · rw [other] at alphanumeric
    cases alphanumeric
  · exact notHyphen rfl

end WikiPress.Slug
