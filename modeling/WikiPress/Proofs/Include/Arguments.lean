import Mathlib.Data.List.Infix
import WikiPress.Proofs.Include.Writing
import WikiPress.Proofs.Pipe.Escaping

/-!
# Arguments arrive as they were written

The arguments of an invocation are written with their pipes escaped and with pipes between
them.  What stands between the pipe behind the name and the closing braces is cut at its
separating pipes and restored, so a fragment is filled with the very arguments.
-/

namespace WikiPress.Include

open WikiPress.Text

/-- Arguments as they are written behind the name of an invocation. -/
def encodeArguments (arguments : List String) : String :=
  "|".intercalate (arguments.map Pipe.escape)

/-- An invocation with its arguments, as it stands in a text. -/
def invocationText (name : String) (arguments : List String) : String :=
  "\x7b\x7b" ++ name ++ "|" ++ encodeArguments arguments ++ "\x7d\x7d"

/-- Whether arguments may be written behind the name of an invocation: they hold no brace
and no line feed, and no backslash comes to stand directly before a pipe. -/
structure AreWritable (arguments : List String) : Prop where
  isArgument : ∀ argument ∈ arguments, ∀ char ∈ argument.toList, isArgumentChar char = true
  inside : ∀ argument ∈ arguments, ¬ ['\\', '|'] <:+: argument.toList
  ends : ∀ argument ∈ arguments.dropLast, argument.toList.getLast? ≠ some '\\'

variable {arguments : List String}

theorem toList_encodeArguments (arguments : List String) :
    (encodeArguments arguments).toList =
      ['|'].intercalate ((arguments.map String.toList).map Pipe.escapeChars) := by
  unfold encodeArguments
  rw [String.toList_intercalate, List.map_map, List.map_map]
  congr 1
  apply List.map_congr_left
  intro argument _
  exact String.toList_ofList

/-- Writing arguments brings no brace and no line feed in. -/
theorem isArgumentChar_of_mem_encodeArguments (writable : AreWritable arguments) :
    ∀ char ∈ (encodeArguments arguments).toList, isArgumentChar char = true := by
  have joined {segments : List (List Char)}
      (isArgument : ∀ segment ∈ segments, ∀ char ∈ segment, isArgumentChar char = true) :
      ∀ char ∈ ['|'].intercalate segments, isArgumentChar char = true := by
    induction segments with
    | nil => exact nofun
    | cons segment segments ih =>
        obtain ⟨first, later⟩ := List.forall_mem_cons.mp isArgument
        by_cases last : segments = []
        · rw [last, List.intercalate_singleton]
          exact first
        · rw [List.intercalate_cons_of_ne_nil last]
          intro char member
          rcases List.mem_append.mp member with inFirst | inLater
          · rcases List.mem_append.mp inFirst with inSegment | isPipe
            · exact first char inSegment
            · rw [List.mem_singleton.mp isPipe]
              rfl
          · exact ih later char inLater
  rw [toList_encodeArguments]
  apply joined
  intro segment isSegment char member
  obtain ⟨chars, isChars, rfl⟩ := List.mem_map.mp isSegment
  obtain ⟨argument, isArgument, rfl⟩ := List.mem_map.mp isChars
  rcases Pipe.mem_of_mem_escapeChars member with inArgument | rfl
  · exact writable.isArgument argument isArgument char inArgument
  · rfl

/-- Arguments are read back from what was written, unless nothing was. -/
theorem argumentList_encodeArguments (writable : AreWritable arguments)
    (written : encodeArguments arguments ≠ "") (name : List Char) :
    (Invocation.mk name (some (encodeArguments arguments).toList)).argumentList = arguments := by
  have nonempty : arguments.map String.toList ≠ [] := by
    rintro none
    rw [List.map_eq_nil_iff] at none
    rw [none] at written
    exact written rfl
  have cutAgain : Pipe.segments none (encodeArguments arguments).toList =
      (arguments.map String.toList).map Pipe.escapeChars := by
    rw [toList_encodeArguments]
    apply Pipe.cut_intercalate nonempty
    · intro segment member
      obtain ⟨argument, isArgument, rfl⟩ := List.mem_map.mp member
      exact writable.inside argument isArgument
    · intro segment member
      rw [← List.map_dropLast] at member
      obtain ⟨argument, isArgument, rfl⟩ := List.mem_map.mp member
      exact writable.ends argument isArgument
  unfold Invocation.argumentList
  split
  · rename_i none
    cases none
  · rename_i empty
    exact absurd (String.toList_eq_nil_iff.mp (Option.some.inj empty)) written
  · rename_i text _ textEq
    cases textEq
    rw [cutAgain, List.map_map, List.map_map]
    apply List.map_id''
    intro argument
    simp only [Function.comp_apply, Pipe.unescapeChars_escapeChars, String.ofList_toList]

@[simp]
theorem Piece.render_append {α : Type} (textOf : α → List Char → List Char)
    (left right : List (Piece α)) :
    Piece.render textOf (left ++ right) =
      Piece.render textOf left ++ Piece.render textOf right := by
  induction left with
  | nil => rfl
  | cons piece left ih =>
      cases piece with
      | call value source =>
          rw [List.cons_append, Piece.render, Piece.render, ih, List.append_assoc]
      | char value => rw [List.cons_append, Piece.render, Piece.render, ih, List.cons_append]

/-- A placeholder with the number of an argument is filled with this argument. -/
theorem fill_eq_argument {place : Placeholder} {index : Nat} {value : String}
    (numbered : decimal? place.number = some (index + 1)) (inRange : index < placeholderMax)
    (given : arguments[index]? = some value) : place.fill arguments = value.toList := by
  have found : place.argument? arguments = some value := by
    unfold Placeholder.argument?
    rw [numbered]
    exact (if_pos inRange).trans given
  unfold Placeholder.fill
  rw [found]

/-- Arguments survive being written.  A round over an invocation fills the fragment with
the very arguments that the invocation was written with, and every placeholder with the
number of an argument gives way to this argument, wherever it stands in the fragment. -/
theorem substitute_invocationText {name : String} (isName : IsName name.toList)
    {cache : Cache} {fragment : String} (cached : cache.get? name = some fragment)
    (writable : AreWritable arguments) (written : encodeArguments arguments ≠ "") :
    substitute cache (invocationText name arguments) = fillPlaceholders fragment arguments ∧
    ∀ (left right : List (Piece Placeholder)) (place : Placeholder) (source : List Char)
      (index : Nat) (value : String),
      placeholderPieces fragment.toList = left ++ .call place source :: right →
      decimal? place.number = some (index + 1) → index < placeholderMax →
      arguments[index]? = some value →
      (substitute cache (invocationText name arguments)).toList =
        Piece.render (fun place _ => place.fill arguments) left ++ value.toList ++
          Piece.render (fun place _ => place.fill arguments) right := by
  have isArgument : ∀ chars ∈ some (encodeArguments arguments).toList, ∀ char ∈ chars,
      isArgumentChar char = true := by
    rintro _ ⟨⟩
    exact isArgumentChar_of_mem_encodeArguments writable
  have found := invocation?_write isName isArgument []
  have textEq : (invocationText name arguments).toList =
      '{' :: '{' :: (name.toList ++
        (writeClosing (some (encodeArguments arguments).toList) ++ [])) := by
    simp [invocationText, writeClosing]
  have pieces : invocationPieces [] = [] := by
    rw [invocationPieces]
  have filled : substitute cache (invocationText name arguments) =
      fillPlaceholders fragment arguments := by
    unfold substitute
    rw [textEq, invocationPieces_of_eq_some found, pieces, Piece.render, Piece.render,
      List.append_nil, Invocation.expand, String.ofList_toList, cached,
      argumentList_encodeArguments writable written]
    exact String.ofList_toList
  refine ⟨filled, ?_⟩
  intro left right place source index value piecesEq numbered inRange given
  rw [filled, fillPlaceholders, String.toList_ofList, piecesEq, Piece.render_append, Piece.render,
    fill_eq_argument numbered inRange given, List.append_assoc]

/-- A fragment with places for the first and the third argument. -/
def framedPair : List Part :=
  [.char '<', .place ⟨['1'], none⟩, .place ⟨['3'], none⟩, .char '>']

/-- Of the three arguments the first holds a pipe, the second is empty, and the last ends
in a backslash. -/
theorem substitute_invocationText_escapedPipe :
    let arguments := ["a|b", "", "c\\"]
    let cache : Cache := ⟨[("pair", textOf framedPair)]⟩
    let filled := substitute cache (invocationText "pair" arguments)
    IsName "pair".toList ∧ cache.get? "pair" = some (textOf framedPair) ∧
      AreWritable arguments ∧ encodeArguments arguments = "a\\|b||c\\" ∧
      filled = fillPlaceholders (textOf framedPair) arguments ∧
      filled.toList = "<a|b".toList ++ "c\\".toList ++ ">".toList := by
  intro arguments cache filled
  have isName : IsName "pair".toList := by decide
  have writable : AreWritable arguments :=
    ⟨by simp [arguments, isArgumentChar], by decide +kernel, by decide +kernel⟩
  have written : encodeArguments arguments = "a\\|b||c\\" := by decide +kernel
  have pieces : placeholderPieces (textOf framedPair).toList =
      [.char '<', .call ⟨['1'], none⟩ (Placeholder.write ⟨['1'], none⟩)] ++
        .call ⟨['3'], none⟩ (Placeholder.write ⟨['3'], none⟩) :: [.char '>'] := by cbv
  have survived := substitute_invocationText isName (rfl : cache.get? "pair" = _) writable
    (by rw [written]; decide)
  refine ⟨isName, rfl, writable, written, survived.1, ?_⟩
  exact (survived.2 _ _ _ _ 2 "c\\" pieces (by decide) (by decide) rfl).trans (by decide +kernel)

end WikiPress.Include
