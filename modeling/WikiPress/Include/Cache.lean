/-!
# The fragments of a run

Fragments are loaded once and then kept under the name by which they are
invoked.  Entries stay in the order in which they came.
-/

namespace WikiPress.Include

/-- Fragments by name. -/
structure Cache where
  entries : List (String × String) := []
deriving DecidableEq, Repr, Inhabited

namespace Cache

/-- The fragment of a name. -/
def get? (cache : Cache) (name : String) : Option String :=
  cache.entries.lookup name

/-- Whether there is a fragment of a name. -/
def contains (cache : Cache) (name : String) : Bool :=
  (cache.get? name).isSome

/-- Keep a fragment under a name, in place of one that is there. -/
def insert (cache : Cache) (name fragment : String) : Cache :=
  if cache.contains name then
    ⟨cache.entries.map fun (other, kept) => (other, if other = name then fragment else kept)⟩
  else
    ⟨cache.entries ++ [(name, fragment)]⟩

/-- Number of fragments. -/
def size (cache : Cache) : Nat :=
  cache.entries.length

@[simp]
theorem get?_empty (name : String) : ({} : Cache).get? name = none :=
  rfl

theorem contains_iff {cache : Cache} {name : String} :
    cache.contains name = true ↔ ∃ fragment, cache.get? name = some fragment :=
  Option.isSome_iff_exists

theorem get?_eq_none_of_not_contains {cache : Cache} {name : String}
    (missing : ¬cache.contains name = true) : cache.get? name = none := by
  simpa [contains] using missing

/-- Changing the values of one key changes no other look-up. -/
theorem lookup_map_value (entries : List (String × String)) (name fragment other : String) :
    (entries.map fun (key, kept) => (key, if key = name then fragment else kept)).lookup other =
      if other = name then (entries.lookup other).map fun _ => fragment
      else entries.lookup other := by
  induction entries with
  | nil => simp
  | cons entry entries ih =>
      obtain ⟨key, kept⟩ := entry
      rw [List.map_cons, List.lookup_cons, List.lookup_cons]
      by_cases here : other = key
      · subst key
        by_cases same : other = name <;> simp [same]
      · have different : (other == key) = false := beq_false_of_ne here
        rw [different]
        exact ih

/-- What was put into a cache is found, and all else is found as before. -/
@[simp]
theorem get?_insert (cache : Cache) (name fragment other : String) :
    (cache.insert name fragment).get? other =
      if other = name then some fragment else cache.get? other := by
  unfold insert
  split
  · rename_i present
    obtain ⟨kept, found⟩ := contains_iff.mp present
    rw [get?, lookup_map_value]
    by_cases same : other = name
    · subst other
      rw [if_pos rfl, if_pos rfl]
      exact congrArg (Option.map fun _ => fragment) found
    · rw [if_neg same, if_neg same]
      rfl
  · rename_i missing
    rw [get?, List.lookup_append]
    by_cases same : other = name
    · subst same
      have absent : cache.entries.lookup other = none := get?_eq_none_of_not_contains missing
      simp [absent]
    · have different : (other == name) = false := beq_false_of_ne same
      simp [same, different, get?]

end Cache

end WikiPress.Include
