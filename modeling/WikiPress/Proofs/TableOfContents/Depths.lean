import Mathlib.Data.List.Chain
import WikiPress.TableOfContents

/-!
# How deep headings are nested

The list of a table of contents starts at depth zero and goes down one step at a time, and no
heading stands deeper than its level is below the topmost one.  The heading behind one that is
held back above that depth may go down one step more.  So two headings of one level, with none
of a smaller level between them, stand side by side exactly if the first is not held back.
-/

namespace WikiPress.TableOfContents

/-- The depth of an entry behind one at some depth. -/
def depthBehind (top : Nat) (previous : Option Nat) (entry : Entry) : Nat :=
  previous.elim 0 fun previous => min (entry.level - top) (previous + 1)

/-- Entries with the depths at which they are listed, behind an entry at some depth. -/
def nested (top : Nat) (previous : Option Nat) (entries : List Entry) : List (Entry × Nat) :=
  entries.zip (depths top previous entries)

variable {top : Nat} {previous : Option Nat} {entries : List Entry}

@[simp]
theorem nested_cons (top : Nat) (previous : Option Nat) (entry : Entry) (rest : List Entry) :
    nested top previous (entry :: rest) =
      (entry, depthBehind top previous entry) ::
        nested top (some (depthBehind top previous entry)) rest := by
  cases previous <;> rfl

@[simp]
theorem map_fst_nested (top : Nat) (previous : Option Nat) (entries : List Entry) :
    (nested top previous entries).map Prod.fst = entries := by
  induction entries generalizing previous with
  | nil => rfl
  | cons entry rest ih => rw [nested_cons, List.map_cons, ih]

theorem depth_eq_zero_of_head? {first : Entry × Nat}
    (isFirst : first ∈ (nested top none entries).head?) : first.2 = 0 := by
  cases entries with
  | nil => cases isFirst
  | cons entry rest =>
      rw [nested_cons] at isFirst
      cases isFirst
      rfl

theorem topLevel_le {entry : Entry} (member : entry ∈ entries) :
    topLevel entries ≤ entry.level := by
  have levelMember : entry.level ∈ entries.map Entry.level := List.mem_map_of_mem member
  obtain ⟨least, found⟩ : ∃ least, (entries.map Entry.level).min? = some least :=
    Option.ne_none_iff_exists'.mp fun none => by
      rw [List.min?_eq_none_iff.mp none] at levelMember
      cases levelMember
  rw [topLevel, found]
  exact (List.min?_eq_some_iff.mp found).2 entry.level levelMember

/-! ## One entry behind another -/

/-- An entry stands at most one step deeper than the one before it. -/
theorem isChain_nested (top : Nat) (previous : Option Nat) (entries : List Entry) :
    (nested top previous entries).IsChain fun before after => after.2 ≤ before.2 + 1 := by
  induction entries generalizing previous with
  | nil => exact .nil
  | cons entry rest ih =>
      have behind := ih (some (depthBehind top previous entry))
      rw [nested_cons]
      cases rest with
      | nil => exact .singleton _
      | cons next rest =>
          rw [nested_cons] at behind ⊢
          exact .cons_cons (Nat.min_le_right _ _) behind

/-- No entry stands deeper than its level is below the topmost one. -/
theorem depth_le {pair : Entry × Nat} (member : pair ∈ nested top previous entries) :
    pair.2 ≤ pair.1.level - top := by
  induction entries generalizing previous with
  | nil => cases member
  | cons entry rest ih =>
      rw [nested_cons] at member
      rcases List.mem_cons.mp member with rfl | later
      · cases previous with
        | none => exact Nat.zero_le _
        | some previous => exact Nat.min_le_left _ _
      · exact ih later

/-- What stands behind an entry depends on its depth alone. -/
theorem exists_nested_behind {before behind : List (Entry × Nat)} {pair : Entry × Nat}
    (parts : nested top previous entries = before ++ pair :: behind) :
    ∃ rest, behind = nested top (some pair.2) rest := by
  induction before generalizing previous entries with
  | nil =>
      cases entries with
      | nil => cases parts
      | cons entry rest =>
          rw [nested_cons] at parts
          obtain ⟨rfl, rfl⟩ := List.cons.inj parts
          exact ⟨rest, rfl⟩
  | cons earlier before ih =>
      cases entries with
      | nil => cases parts
      | cons entry rest =>
          rw [nested_cons] at parts
          exact ih (List.cons.inj parts).2

/-- As long as the levels allow it, entries behind one at some depth do not come up again. -/
theorem le_depth_of_levels {start bound : Nat} (within : bound ≤ start + 1)
    {between after : List (Entry × Nat)} {pair : Entry × Nat}
    (parts : nested top (some start) entries = between ++ pair :: after)
    (levels : ∀ other ∈ between ++ [pair], bound ≤ other.1.level - top) : bound ≤ pair.2 := by
  induction between generalizing start entries with
  | nil =>
      cases entries with
      | nil => cases parts
      | cons entry rest =>
          rw [nested_cons] at parts
          obtain ⟨rfl, _⟩ := List.cons.inj parts
          exact Nat.le_min.mpr ⟨levels _ List.mem_cons_self, within⟩
  | cons next between ih =>
      cases entries with
      | nil => cases parts
      | cons entry rest =>
          rw [nested_cons] at parts
          obtain ⟨rfl, restParts⟩ := List.cons.inj parts
          obtain ⟨level, levels⟩ := List.forall_mem_cons.mp levels
          have reached : bound ≤ depthBehind top (some start) entry :=
            Nat.le_min.mpr ⟨level, within⟩
          exact ih (Nat.le_succ_of_le reached) restParts levels

/-! ## Siblings -/

/-- Of two entries of one level, with none of a smaller level between them, the second stands as
deep as the first if this is as deep as its level allows, and deeper otherwise. -/
theorem depth_of_sibling {before between after : List (Entry × Nat)} {first second : Entry × Nat}
    (parts : nested top previous entries = before ++ first :: (between ++ second :: after))
    (sameLevel : second.1.level = first.1.level)
    (levels : ∀ other ∈ between, first.1.level ≤ other.1.level) :
    (first.2 = first.1.level - top → second.2 = first.2) ∧
      (first.2 < first.1.level - top → first.2 < second.2) := by
  obtain ⟨rest, behind⟩ := exists_nested_behind parts
  have allowed {bound : Nat} (inLevel : bound ≤ first.1.level - top) :
      ∀ other ∈ between ++ [second], bound ≤ other.1.level - top := by
    intro other member
    have level : first.1.level ≤ other.1.level := by
      rcases List.mem_append.mp member with isBetween | isSecond
      · exact levels other isBetween
      · rw [List.mem_singleton.mp isSecond, sameLevel]
    exact Nat.le_trans inLevel (Nat.sub_le_sub_right level top)
  have secondLe : second.2 ≤ second.1.level - top :=
    depth_le (parts ▸ by simp : second ∈ nested top previous entries)
  constructor
  · intro isFull
    have firstLe := le_depth_of_levels (Nat.le_succ first.2) behind.symm (allowed isFull.le)
    rw [sameLevel, ← isFull] at secondLe
    exact Nat.le_antisymm secondLe firstLe
  · intro isHeld
    exact le_depth_of_levels (Nat.le_refl (first.2 + 1)) behind.symm (allowed isHeld)

/-- The list of the headings down to a level nests them by their depths.  These start at zero and
grow by at most one; none is greater than the heading's level is below the topmost one, which is
below no heading.  Of two headings of one level, with none of a smaller level between them, the
second does not stand above the first, and they stand side by side exactly if the first stands as
deep as its level allows. -/
theorem depths_follow_levels (entries : List Entry) (requested : Nat) :
    let listed := nested (topLevel entries) none
      (entries.filter fun entry => entry.level ≤ requested)
    markdown entries (topLevel entries) requested =
        String.join (listed.map fun (entry, depth) => line entry depth) ∧
      listed.map Prod.fst = entries.filter (fun entry => entry.level ≤ requested) ∧
      (∀ first ∈ listed.head?, first.2 = 0) ∧
      listed.IsChain (fun before after => after.2 ≤ before.2 + 1) ∧
      (∀ entry ∈ listed, topLevel entries ≤ entry.1.level ∧
        entry.2 ≤ entry.1.level - topLevel entries) ∧
      ∀ before first between second after,
        listed = before ++ first :: (between ++ second :: after) →
        second.1.level = first.1.level → (∀ other ∈ between, first.1.level ≤ other.1.level) →
          first.2 ≤ second.2 ∧
            (second.2 = first.2 ↔ first.2 = first.1.level - topLevel entries) := by
  intro listed
  have bounds : ∀ entry ∈ listed, topLevel entries ≤ entry.1.level ∧
      entry.2 ≤ entry.1.level - topLevel entries := by
    intro entry member
    have isListed : entry.1 ∈ listed.map Prod.fst := List.mem_map_of_mem member
    rw [map_fst_nested] at isListed
    exact ⟨topLevel_le (List.mem_of_mem_filter isListed), depth_le member⟩
  refine ⟨rfl, map_fst_nested _ _ _, fun first => depth_eq_zero_of_head?, isChain_nested _ _ _,
    bounds, ?_⟩
  intro before first between second after parts sameLevel levels
  obtain ⟨ifFull, ifHeld⟩ := depth_of_sibling parts sameLevel levels
  have firstLe := (bounds first (by rw [parts]; simp)).2
  rcases Nat.eq_or_lt_of_le firstLe with isFull | isHeld
  · exact ⟨(ifFull isFull).ge, fun _ => isFull, ifFull⟩
  · have deeper := ifHeld isHeld
    exact ⟨deeper.le, fun same => by omega, fun isFull => by omega⟩

/-- Sections below a chapter, of which the first two leave a level out. -/
def skippedLevel : List Entry :=
  [⟨1, "a", "a"⟩, ⟨3, "b", "b"⟩, ⟨3, "c", "c"⟩, ⟨2, "d", "d"⟩, ⟨3, "e", "e"⟩, ⟨3, "f", "f"⟩]

/-- The last two sections stand side by side. -/
theorem depths_follow_levels_skippedLevel :
    nested (topLevel skippedLevel) none (skippedLevel.filter fun entry => entry.level ≤ 3) =
        [(⟨1, "a", "a"⟩, 0), (⟨3, "b", "b"⟩, 1), (⟨3, "c", "c"⟩, 2), (⟨2, "d", "d"⟩, 1)] ++
          (⟨3, "e", "e"⟩, 2) :: ([] ++ (⟨3, "f", "f"⟩, 2) :: []) ∧
      2 ≤ 2 ∧ (2 = 2 ↔ 2 = 3 - topLevel skippedLevel) := by
  have parts : nested (topLevel skippedLevel) none
      (skippedLevel.filter fun entry => entry.level ≤ 3) =
        [(⟨1, "a", "a"⟩, 0), (⟨3, "b", "b"⟩, 1), (⟨3, "c", "c"⟩, 2), (⟨2, "d", "d"⟩, 1)] ++
          (⟨3, "e", "e"⟩, 2) :: ([] ++ (⟨3, "f", "f"⟩, 2) :: []) := by decide
  exact ⟨parts, (depths_follow_levels skippedLevel 3).2.2.2.2.2 _ _ _ _ _ parts rfl nofun⟩

/-- The first two sections, which nothing separates, stand at different depths. -/
theorem depths_differ_skippedLevel :
    ∃ first second after,
      nested (topLevel skippedLevel) none (skippedLevel.filter fun entry => entry.level ≤ 3) =
        [(⟨1, "a", "a"⟩, 0)] ++ first :: ([] ++ second :: after) ∧
      second.1.level = first.1.level ∧ second.2 ≠ first.2 :=
  ⟨(⟨3, "b", "b"⟩, 1), (⟨3, "c", "c"⟩, 2),
    [(⟨2, "d", "d"⟩, 1), (⟨3, "e", "e"⟩, 2), (⟨3, "f", "f"⟩, 2)], by decide, rfl, by decide⟩

end WikiPress.TableOfContents
