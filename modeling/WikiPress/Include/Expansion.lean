import WikiPress.Include.Cache
import WikiPress.Include.Invocation
import WikiPress.Loader

/-!
# Expansion of includes

Every invocation `{{name|…}}` is replaced by the fragment of that name, with its
placeholders filled.  Fragments may invoke fragments, so expansion goes in
rounds: a round loads the fragments that are missing and then replaces all
invocations at once.  It ends when a text holds no invocation, and gives up when
its budget of rounds is spent, which is how a cycle of fragments is found.
-/

namespace WikiPress

namespace Include

/-- Rounds that a page may take unless it is configured otherwise. -/
def defaultLimit : Nat := 500

/-- The file of a fragment. -/
def fragmentPath (name : String) : String :=
  "_" ++ name ++ ".html"

end Include

/-- Why a text could not be expanded. -/
inductive IncludeError where
  | overflow (limit : Nat)
  | load (cause : LoadError)
deriving DecidableEq, Repr

namespace IncludeError

def message : IncludeError → String
  | overflow limit =>
    s!"Encountered likely infinite include chain (gave up after {limit} rounds)"
  | load cause => s!"Failed to load include fragment: {cause.message}"

/-- The messages of the failures behind this one. -/
def causes : IncludeError → List String
  | overflow _ => []
  | load cause => cause.message :: cause.causes

end IncludeError

namespace Include

/-- A list without the entries that occur earlier in it. -/
def distinct : List String → List String
  | [] => []
  | name :: names => name :: (distinct names).filter (· ≠ name)

/-- The names that a text invokes, in order of first appearance. -/
def invokedNames (text : String) : List String :=
  distinct ((invocations text).map fun call => String.ofList call.name)

@[simp]
theorem mem_distinct {name : String} {names : List String} :
    name ∈ distinct names ↔ name ∈ names := by
  induction names with
  | nil => simp [distinct]
  | cons first names ih =>
      by_cases same : name = first
      · simp [distinct, same]
      · simp [distinct, same, ih]

/-- The names that a text invokes are those of the calls that it holds. -/
theorem name_mem_invokedNames {text : String} {call : Invocation} {source : List Char}
    (member : Piece.call call source ∈ invocationPieces text.toList) :
    String.ofList call.name ∈ invokedNames text := by
  rw [invokedNames, mem_distinct]
  apply List.mem_map_of_mem
  exact List.mem_filterMap.mpr ⟨Piece.call call source, member, rfl⟩

/-- The text that takes the place of an invocation; one whose fragment is missing
stays as it is. -/
def Invocation.expand (cache : Cache) (call : Invocation) (source : List Char) : List Char :=
  match cache.get? (String.ofList call.name) with
  | none => source
  | some fragment => (fillPlaceholders fragment call.argumentList).toList

/-- Replace every invocation of a text by its fragment. -/
def substitute (cache : Cache) (text : String) : String :=
  String.ofList (Piece.render (Invocation.expand cache) (invocationPieces text.toList))

variable {m : Type → Type} [Monad m]

/-- Load the fragments of names that are missing, up to the first failure. -/
def loadMissing (loader : Loader m) : List String → Cache → m (Except LoadError Unit × Cache)
  | [], cache => return (.ok (), cache)
  | name :: names, cache => do
    if cache.contains name then
      loadMissing loader names cache
    else
      match ← loader.load (fragmentPath name) with
      | .ok fragment => loadMissing loader names (cache.insert name fragment)
      | .error error => return (.error error, cache)

/-- Expand a text with a number of rounds left of a limit.  What was loaded stays
in the cache, also on failure. -/
def expandRounds (loader : Loader m) (limit : Nat) :
    Nat → Cache → String → m (Except IncludeError String × Cache)
  | 0, cache, text =>
    return (if (invokedNames text).isEmpty then .ok text else .error (.overflow limit), cache)
  | remaining + 1, cache, text => do
    let names := invokedNames text
    if names.isEmpty then
      return (.ok text, cache)
    else
      match ← loadMissing loader names cache with
      | (.error error, cache) => return (.error (.load error), cache)
      | (.ok (), cache) => expandRounds loader limit remaining cache (substitute cache text)

/-- Expand all invocations of a text, within a limit of rounds. -/
def expand (loader : Loader m) (limit : Nat) (cache : Cache) (text : String) :
    m (Except IncludeError String × Cache) :=
  expandRounds loader limit limit cache text

end Include

end WikiPress
