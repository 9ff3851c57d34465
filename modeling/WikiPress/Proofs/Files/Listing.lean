import Mathlib.Data.List.Nodup
import WikiPress.Loader

/-!
# Listings

The paths that a loader lists are in strictly increasing order, so a listing is told by what
stands in it, whatever the order in which a file system names its files.
-/

namespace WikiPress

open Files Glob

/-! ## Sorting without repetitions -/

@[simp]
theorem mem_dedupSorted {paths : List String} {path : String} :
    path ∈ dedupSorted paths ↔ path ∈ paths := by
  induction paths using dedupSorted.induct with
  | case1 => rfl
  | case2 only => rfl
  | case3 second rest ih =>
      rw [dedupSorted, if_pos rfl, ih]
      simp
  | case4 first second rest different ih =>
      rw [dedupSorted, if_neg different, List.mem_cons, ih, ← List.mem_cons]

theorem pairwise_dedupSorted {paths : List String} (sorted : paths.Pairwise (· ≤ ·)) :
    (dedupSorted paths).Pairwise (· < ·) := by
  induction paths using dedupSorted.induct with
  | case1 => exact .nil
  | case2 only => exact List.pairwise_singleton _ _
  | case3 second rest ih =>
      rw [dedupSorted, if_pos rfl]
      exact ih (List.pairwise_cons.mp sorted).2
  | case4 first second rest different ih =>
      obtain ⟨least, others⟩ := List.pairwise_cons.mp sorted
      rw [dedupSorted, if_neg different]
      refine List.pairwise_cons.mpr ⟨fun path member => ?_, ih others⟩
      have less : first < second := Std.lt_of_le_of_ne (least second List.mem_cons_self) different
      rcases List.mem_cons.mp (mem_dedupSorted.mp member) with rfl | later
      · exact less
      · exact Std.lt_of_lt_of_le less ((List.pairwise_cons.mp others).1 path later)

theorem pairwise_mergeSort (paths : List String) :
    (paths.mergeSort fun left right => decide (left ≤ right)).Pairwise (· ≤ ·) := by
  have sorted := @List.pairwise_mergeSort String (fun left right => decide (left ≤ right))
    (fun first second third => by
      simp only [decide_eq_true_eq]
      exact String.le_trans)
    (fun first second => by
      simp only [Bool.or_eq_true, decide_eq_true_eq]
      exact String.le_total first second) paths
  simpa using sorted

/-- Lists in strictly increasing order are told by what stands in them. -/
theorem eq_of_pairwise_lt {first second : List String} (increasing : first.Pairwise (· < ·))
    (alsoIncreasing : second.Pairwise (· < ·)) (same : ∀ path, path ∈ first ↔ path ∈ second) :
    first = second := by
  have perm : first.Perm second :=
    (List.perm_ext_iff_of_nodup (increasing.imp Std.ne_of_lt)
      (alsoIncreasing.imp Std.ne_of_lt)).mpr same
  exact perm.eq_of_pairwise (fun _ _ _ _ less more => (Std.lt_irrefl (Std.lt_trans less more)).elim)
    increasing alsoIncreasing

/-! ## Matching files -/

namespace Loader

variable {patterns : List Pattern} {root : Path} {excluded : List Path}

theorem pairwise_matching (files : List (List String)) :
    (matching patterns root excluded files).Pairwise (· < ·) :=
  pairwise_dedupSorted (pairwise_mergeSort _)

@[simp]
theorem mem_matching {files : List (List String)} {path : Path} :
    path ∈ matching patterns root excluded files ↔
      ∃ names ∈ files, isExcluded root excluded names = false ∧
        "/".intercalate names = path ∧ patterns.any (·.accepts path) = true := by
  unfold matching
  simp only [mem_dedupSorted, List.mem_mergeSort, List.mem_filter, List.mem_map,
    Bool.not_eq_true']
  constructor
  · rintro ⟨⟨names, ⟨member, kept⟩, shown⟩, accepted⟩
    exact ⟨names, member, kept, shown, accepted⟩
  · rintro ⟨names, member, kept, shown, accepted⟩
    exact ⟨⟨names, ⟨member, kept⟩, shown⟩, accepted⟩

/-- Only which files there are outside of excluded directories matters for a listing. -/
theorem matching_congr {files others : List (List String)}
    (same : ∀ names, isExcluded root excluded names = false → (names ∈ files ↔ names ∈ others)) :
    matching patterns root excluded files = matching patterns root excluded others := by
  refine eq_of_pairwise_lt (pairwise_matching files) (pairwise_matching others) fun path => ?_
  rw [mem_matching, mem_matching]
  constructor
  · rintro ⟨names, member, kept, shown⟩
    exact ⟨names, (same names kept).mp member, kept, shown⟩
  · rintro ⟨names, member, kept, shown⟩
    exact ⟨names, (same names kept).mpr member, kept, shown⟩

end Loader

end WikiPress
