import WikiPress.Files.Path
import WikiPress.Proofs.Text.Splitting

/-!
# The parts of a path

A path is written from its parts and read back as its parts.  `Path.resolve` is what
the parts come to when nothing is looked up: a name goes down, `..` goes up.  On names
alone it changes nothing.
-/

namespace WikiPress.Files.Path

/-- What can stand between slashes and is not `.`. -/
structure IsPart (part : String) : Prop where
  ne_empty : part ≠ ""
  noSlash : '/' ∉ part.toList
  ne_here : part ≠ "."

/-- What can be the name of a file or of a directory. -/
structure IsName (name : String) : Prop extends IsPart name where
  ne_above : name ≠ ".."

instance (part : String) : Decidable (IsPart part) :=
  decidable_of_iff (part ≠ "" ∧ '/' ∉ part.toList ∧ part ≠ ".")
    ⟨fun parts => ⟨parts.1, parts.2.1, parts.2.2⟩,
      fun isPart => ⟨isPart.ne_empty, isPart.noSlash, isPart.ne_here⟩⟩

instance (name : String) : Decidable (IsName name) :=
  decidable_of_iff (IsPart name ∧ name ≠ "..")
    ⟨fun parts => ⟨parts.1, parts.2⟩, fun isName => ⟨isName.toIsPart, isName.ne_above⟩⟩

/-! ## Reading parts -/

theorem of_mem_rawParts {path : Path} {part : String} (member : part ∈ rawParts path) :
    part ≠ "" ∧ '/' ∉ part.toList := by
  unfold rawParts at member
  obtain ⟨chars, charsMember, rfl⟩ := List.mem_map.mp member
  obtain ⟨split, nonempty⟩ := List.mem_filter.mp charsMember
  constructor
  · simpa using nonempty
  · rw [String.toList_ofList]
    exact Text.not_mem_of_mem_splitOn split

theorem isPart_of_mem_parts {path : Path} {part : String} (member : part ∈ parts path) :
    IsPart part := by
  obtain ⟨raw, here⟩ := List.mem_filter.mp member
  obtain ⟨nonempty, noSlash⟩ := of_mem_rawParts raw
  exact ⟨nonempty, noSlash, by simpa using here⟩

@[simp]
theorem rawParts_append_slash (path rest : Path) :
    rawParts (path ++ "/" ++ rest) = rawParts path ++ rawParts rest := by
  unfold rawParts
  have split : (path ++ "/" ++ rest).toList = path.toList ++ '/' :: rest.toList := by simp
  rw [split, List.splitOn_append_cons_self, List.filter_append, List.map_append]

theorem rawParts_of_isPart {part : String} (isPart : IsPart part) : rawParts part = [part] := by
  unfold rawParts
  rw [List.splitOn_eq_singleton isPart.noSlash]
  simp [isPart.ne_empty]

@[simp]
theorem rawParts_empty : rawParts "" = [] := by
  decide

/-- A slash at the end adds no part. -/
theorem rawParts_closed (path : Path) : rawParts (path ++ "/") = rawParts path := by
  have alone := rawParts_append_slash path ""
  rwa [String.append_empty, rawParts_empty, List.append_nil] at alone

/-! ## Writing parts -/

theorem rawParts_intercalate {named : List String} (isPart : ∀ part ∈ named, IsPart part) :
    rawParts ("/".intercalate named) = named := by
  induction named with
  | nil => exact rawParts_empty
  | cons part named ih =>
      have first := rawParts_of_isPart (isPart part List.mem_cons_self)
      cases named with
      | nil => rwa [String.intercalate_singleton]
      | cons next named =>
          rw [String.intercalate_cons_cons, rawParts_append_slash, first,
            ih fun later member => isPart later (List.mem_cons_of_mem part member)]
          rfl

theorem rawParts_ofParts {named : List String} (isPart : ∀ part ∈ named, IsPart part) :
    rawParts (ofParts named) = named := by
  have joined := rawParts_append_slash "" ("/".intercalate named)
  rw [rawParts_empty, List.nil_append, String.empty_append] at joined
  exact joined.trans (rawParts_intercalate isPart)

theorem filter_ne_here {named : List String} (isPart : ∀ part ∈ named, IsPart part) :
    named.filter (· ≠ ".") = named := by
  rw [List.filter_eq_self]
  intro part member
  simpa using (isPart part member).ne_here

theorem parts_ofParts {named : List String} (isPart : ∀ part ∈ named, IsPart part) :
    parts (ofParts named) = named := by
  unfold parts
  rw [rawParts_ofParts isPart, filter_ne_here isPart]

theorem parts_intercalate {named : List String} (isPart : ∀ part ∈ named, IsPart part) :
    parts ("/".intercalate named) = named := by
  unfold parts
  rw [rawParts_intercalate isPart, filter_ne_here isPart]

@[simp]
theorem isAbsolute_ofParts (named : List String) : isAbsolute (ofParts named) = true := by
  simp [isAbsolute, ofParts]

theorem rawParts_append_name_of_endsInSlash {directory : Path} {name : String}
    (slash : endsInSlash directory = true) :
    rawParts (directory ++ name) = rawParts directory ++ rawParts name := by
  have ends : ∃ start : String, directory = start ++ "/" := by
    obtain ⟨chars, charsEq⟩ := List.getLast?_eq_some_iff.mp (beq_iff_eq.mp slash)
    refine ⟨String.ofList chars, ?_⟩
    rw [← String.toList_inj, charsEq]
    simp
  obtain ⟨start, rfl⟩ := ends
  rw [rawParts_append_slash, rawParts_closed]

/-- What stands behind a path that is not empty does not change where it starts. -/
theorem isAbsolute_append {directory : Path} (nonempty : directory ≠ "") (rest : Path) :
    isAbsolute (directory ++ rest) = isAbsolute directory := by
  unfold isAbsolute
  rw [String.toList_append]
  cases chars : directory.toList with
  | nil => exact absurd (String.toList_inj.mp chars) nonempty
  | cons first chars => rfl

theorem ne_empty_of_isAbsolute {path : Path} (absolute : isAbsolute path = true) : path ≠ "" := by
  rintro rfl
  cases absolute

theorem isAbsolute_join {directory path : Path} (relative : isAbsolute path = false) :
    isAbsolute (join directory path) = isAbsolute directory := by
  unfold join
  rw [relative, if_neg Bool.false_ne_true]
  by_cases empty : directory = ""
  · subst empty
    exact relative
  · split
    · exact isAbsolute_append empty path
    · have closed : directory ++ "/" ≠ "" := by simp
      rw [isAbsolute_append closed, isAbsolute_append empty]

theorem rawParts_join {directory path : Path} (relative : isAbsolute path = false) :
    rawParts (join directory path) = rawParts directory ++ rawParts path := by
  unfold join
  rw [relative, if_neg Bool.false_ne_true]
  split
  · rename_i closed
    rcases (Bool.or_eq_true _ _).mp closed with empty | slash
    · rw [String.isEmpty_iff.mp empty, rawParts_empty, String.empty_append]
      rfl
    · exact rawParts_append_name_of_endsInSlash slash
  · exact rawParts_append_slash directory path

theorem parts_join {directory path : Path} (relative : isAbsolute path = false) :
    parts (join directory path) = parts directory ++ parts path := by
  unfold parts
  rw [rawParts_join relative, List.filter_append]

theorem isAbsolute_of_isPart {part : String} (isPart : IsPart part) : isAbsolute part = false := by
  unfold isAbsolute
  rw [beq_eq_false_iff_ne]
  intro first
  exact isPart.noSlash (List.mem_of_head? first)

theorem parts_of_isPart {part : String} (isPart : IsPart part) : parts part = [part] := by
  unfold parts
  rw [rawParts_of_isPart isPart]
  simp [isPart.ne_here]

/-- Parts that are written behind each other make a path that starts nowhere. -/
theorem isAbsolute_intercalate {named : List String} (isPart : ∀ part ∈ named, IsPart part) :
    isAbsolute ("/".intercalate named) = false := by
  cases named with
  | nil => rfl
  | cons part named =>
      have first := isPart part List.mem_cons_self
      cases named with
      | nil =>
          rw [String.intercalate_singleton]
          exact isAbsolute_of_isPart first
      | cons next named =>
          have closed : part ++ "/" ≠ "" := by simp
          rw [String.intercalate_cons_cons, isAbsolute_append closed,
            isAbsolute_append first.ne_empty]
          exact isAbsolute_of_isPart first

/-! ## Resolving parts -/

/-- One step along a path of which nothing is looked up. -/
def resolveStep (place : List String) (part : String) : List String :=
  if part = "." then place
  else if part = ".." then place.dropLast
  else place ++ [part]

/-- Where the parts of a path lead from a place when nothing is looked up. -/
def resolve (place : List String) (named : List String) : List String :=
  named.foldl resolveStep place

@[simp]
theorem resolve_append (place first second : List String) :
    resolve place (first ++ second) = resolve (resolve place first) second :=
  List.foldl_append

/-- Names lead down. -/
theorem resolve_of_isName {named : List String} (place : List String)
    (isName : ∀ name ∈ named, IsName name) : resolve place named = place ++ named := by
  induction named generalizing place with
  | nil => rw [List.append_nil]; rfl
  | cons name named ih =>
      have first := isName name List.mem_cons_self
      have step : resolveStep place name = place ++ [name] := by
        unfold resolveStep
        rw [if_neg first.ne_here, if_neg first.ne_above]
      calc
        resolve place (name :: named) = resolve (place ++ [name]) named := by
          rw [← step]
          rfl
        _ = place ++ [name] ++ named := ih _ fun later member =>
          isName later (List.mem_cons_of_mem name member)
        _ = place ++ name :: named := (List.append_cons place name named).symm

/-- The steps that `.` stands for lead nowhere. -/
@[simp]
theorem resolve_parts (place : List String) (path : Path) :
    resolve place (parts path) = resolve place (rawParts path) := by
  unfold parts
  generalize rawParts path = raw
  induction raw generalizing place with
  | nil => rfl
  | cons part raw ih =>
      by_cases here : part = "."
      · rw [here]
        exact ih place
      · rw [List.filter_cons_of_pos (by simpa using here)]
        exact ih (resolveStep place part)

theorem isName_of_mem_resolve {place named : List String}
    (isName : ∀ name ∈ place, IsName name)
    (ordinary : ∀ part ∈ named, part ≠ "" ∧ '/' ∉ part.toList) :
    ∀ name ∈ resolve place named, IsName name := by
  induction named generalizing place with
  | nil => exact isName
  | cons part named ih =>
      apply ih _ fun later member => ordinary later (List.mem_cons_of_mem part member)
      obtain ⟨nonempty, noSlash⟩ := ordinary part List.mem_cons_self
      intro name member
      unfold resolveStep at member
      split at member
      · exact isName name member
      · rename_i notHere
        split at member
        · exact isName name ((List.dropLast_sublist place).mem member)
        · rename_i notAbove
          rcases List.mem_append.mp member with earlier | last
          · exact isName name earlier
          · rw [List.mem_singleton.mp last]
            exact ⟨⟨nonempty, noSlash, notHere⟩, notAbove⟩

/-! ## Plain paths -/

/-- A path that is written from names, without a slash at either end. -/
structure IsPlain (path : Path) : Prop where
  relative : isAbsolute path = false
  isName : ∀ name ∈ parts path, IsName name
  written : "/".intercalate (parts path) = path

theorem isPlain_intercalate {named : List String} (isName : ∀ name ∈ named, IsName name) :
    IsPlain ("/".intercalate named) := by
  have isPart : ∀ part ∈ named, IsPart part := fun part member => (isName part member).toIsPart
  constructor
  · exact isAbsolute_intercalate isPart
  · rw [parts_intercalate isPart]
    exact isName
  · rw [parts_intercalate isPart]

theorem isPlain_of_isName {name : String} (isName : IsName name) : IsPlain name := by
  have alone := @isPlain_intercalate [name] (by simpa using isName)
  rwa [String.intercalate_singleton] at alone

/-- Plain paths are told apart by their parts. -/
theorem IsPlain.parts_inj {path other : Path} (plain : IsPlain path) (otherPlain : IsPlain other) :
    parts path = parts other ↔ path = other := by
  constructor
  · intro same
    rw [← plain.written, same, otherPlain.written]
  · exact congrArg parts

end WikiPress.Files.Path
