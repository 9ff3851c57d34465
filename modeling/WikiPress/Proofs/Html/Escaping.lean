import Mathlib.Data.List.Basic
import WikiPress.Html

/-!
# Escaping

Text is escaped by four replacements, each of which goes through what the ones before it
have written.  Ampersands come first, and no entity holds a character that is replaced
later, so this is the same as writing an entity for every such character at once.  What is
written holds no mark of a tag, and reading its entities gives the text back.
-/

namespace WikiPress.Html

open Text

/-- What is written for a character. -/
def entity : Char → List Char
  | '&' => ['&', 'a', 'm', 'p', ';']
  | '<' => ['&', 'l', 't', ';']
  | '>' => ['&', 'g', 't', ';']
  | '"' => ['&', 'q', 'u', 'o', 't', ';']
  | char => [char]

/-- Read the entities in a text. -/
def unescape : List Char → List Char
  | '&' :: 'a' :: 'm' :: 'p' :: ';' :: rest => '&' :: unescape rest
  | '&' :: 'l' :: 't' :: ';' :: rest => '<' :: unescape rest
  | '&' :: 'g' :: 't' :: ';' :: rest => '>' :: unescape rest
  | '&' :: 'q' :: 'u' :: 'o' :: 't' :: ';' :: rest => '"' :: unescape rest
  | char :: rest => char :: unescape rest
  | [] => []

/-! ## One character -/

/-- A character that is escaped, or one that is written as it is. -/
theorem entity_cases (char : Char) :
    (char = '&' ∨ char = '<' ∨ char = '>' ∨ char = '"') ∨
      (char ≠ '&' ∧ char ≠ '<' ∧ char ≠ '>' ∧ char ≠ '"') ∧ entity char = [char] := by
  unfold entity
  split
  case h_5 notAnd notLt notGt notQuote => exact .inr ⟨⟨notAnd, notLt, notGt, notQuote⟩, rfl⟩
  all_goals simp

theorem not_mem_entity (char : Char) :
    '<' ∉ entity char ∧ '>' ∉ entity char ∧ '"' ∉ entity char := by
  rcases entity_cases char with (rfl | rfl | rfl | rfl) | ⟨⟨_, notLt, notGt, notQuote⟩, same⟩
  case inr => simpa [same] using ⟨Ne.symm notLt, Ne.symm notGt, Ne.symm notQuote⟩
  all_goals decide

theorem unescape_cons_of_ne {char : Char} (plain : char ≠ '&') (rest : List Char) :
    unescape (char :: rest) = char :: unescape rest := by
  rw [unescape.eq_def]
  split
  case h_5 same =>
    cases same
    rfl
  case h_6 same => cases same
  all_goals
    rename_i same
    exact absurd (List.cons.inj same).1 plain

@[simp]
theorem unescape_entity_append (char : Char) (rest : List Char) :
    unescape (entity char ++ rest) = char :: unescape rest := by
  rcases entity_cases char with (rfl | rfl | rfl | rfl) | ⟨⟨plain, _⟩, same⟩
  case inr =>
    rw [same]
    exact unescape_cons_of_ne plain rest
  all_goals rfl

/-! ## Texts -/

/-- Replacing a single character. -/
@[simp]
theorem replaceChars_singleton (first : Char) (value chars : List Char) :
    replaceChars first [] value chars =
      chars.flatMap fun char => if char = first then value else [char] := by
  induction chars with
  | nil => simp [replaceChars]
  | cons char chars ih =>
      rw [replaceChars, List.flatMap_cons]
      by_cases same : char = first
      · rw [if_pos same, if_pos same, after?_nil, ← ih]
      · rw [if_neg same, if_neg same, ih]
        rfl

theorem toList_replace_of_singleton (first : Char) {pattern : String}
    (single : pattern.toList = [first]) (value text : String) :
    (Text.replace pattern value text).toList =
      text.toList.flatMap fun char => if char = first then value.toList else [char] := by
  unfold Text.replace
  rw [single]
  simp only [String.toList_ofList, replaceChars_singleton]

/-- The four replacements are one. -/
@[simp]
theorem toList_escape (text : String) : (escape text).toList = text.toList.flatMap entity := by
  have amp : "&amp;".toList = ['&', 'a', 'm', 'p', ';'] := rfl
  have lt : "&lt;".toList = ['&', 'l', 't', ';'] := rfl
  have gt : "&gt;".toList = ['&', 'g', 't', ';'] := rfl
  have quot : "&quot;".toList = ['&', 'q', 'u', 'o', 't', ';'] := rfl
  unfold escape
  rw [toList_replace_of_singleton '"' rfl, toList_replace_of_singleton '>' rfl,
    toList_replace_of_singleton '<' rfl, toList_replace_of_singleton '&' rfl]
  simp only [List.flatMap_assoc, amp, lt, gt, quot]
  refine congrArg (text.toList.flatMap ·) (funext fun char => ?_)
  rcases entity_cases char with (rfl | rfl | rfl | rfl) | ⟨⟨notAnd, notLt, notGt, notQuote⟩, same⟩
  case inr => simp [same, notAnd, notLt, notGt, notQuote]
  all_goals rfl

@[simp]
theorem escape_append (first second : String) :
    escape (first ++ second) = escape first ++ escape second := by
  rw [← String.toList_inj]
  simp only [toList_escape, String.toList_append, List.flatMap_append]

@[simp]
theorem unescape_flatMap_entity (chars : List Char) :
    unescape (chars.flatMap entity) = chars := by
  induction chars with
  | nil => rfl
  | cons char chars ih => rw [List.flatMap_cons, unescape_entity_append, ih]

/-- Escaping is undone by reading the entities. -/
theorem unescape_escape (text : String) : unescape (escape text).toList = text.toList := by
  rw [toList_escape, unescape_flatMap_entity]

/-- Escaped text holds no mark of a tag, and does not end a value. -/
theorem not_mem_escape (text : String) :
    '<' ∉ (escape text).toList ∧ '>' ∉ (escape text).toList ∧ '"' ∉ (escape text).toList := by
  simp only [toList_escape, List.mem_flatMap, not_exists, not_and]
  exact ⟨fun char _ => (not_mem_entity char).1, fun char _ => (not_mem_entity char).2.1,
    fun char _ => (not_mem_entity char).2.2⟩

/-- Text without characters to escape is written as it is. -/
theorem escape_of_plain {text : String}
    (plain : ∀ char ∈ text.toList, char ≠ '&' ∧ char ≠ '<' ∧ char ≠ '>' ∧ char ≠ '"') :
    escape text = text := by
  have same : ∀ char ∈ text.toList, entity char = [char] := by
    intro char member
    have unescaped := plain char member
    rcases entity_cases char with escaped | ⟨_, same⟩
    · grind
    · exact same
  rw [← String.toList_inj, toList_escape, List.flatMap_congr same, List.flatMap_singleton']

/-! ## The whole map -/

/-- An entity has its ampersand in front. -/
theorem amp_not_mem_tail_entity (char : Char) : '&' ∉ (entity char).tail := by
  rcases entity_cases char with (rfl | rfl | rfl | rfl) | ⟨_, same⟩
  case inr => simp [same]
  all_goals decide

/-- An ampersand that is written for a character is the first of its entity. -/
theorem eq_nil_of_entity_eq {char : Char} {before behind : List Char}
    (written : entity char = before ++ '&' :: behind) :
    before = [] ∧ char ∈ ['&', '<', '>', '"'] := by
  constructor
  · cases before with
    | nil => rfl
    | cons first before =>
        refine absurd ?_ (amp_not_mem_tail_entity char)
        rw [written]
        simp
  · rcases entity_cases char with escaped | ⟨⟨plain, _⟩, same⟩
    · simpa using escaped
    · -- a character that is written as it is would be the ampersand
      have member : '&' ∈ entity char := by simp [written]
      rw [same] at member
      exact absurd (List.mem_singleton.mp member).symm plain

theorem exists_entity_of_flatMap_eq {chars before behind : List Char}
    (written : chars.flatMap entity = before ++ '&' :: behind) :
    ∃ char ∈ ['&', '<', '>', '"'], entity char <+: '&' :: behind := by
  induction chars generalizing before with
  | nil => simp at written
  | cons char chars ih =>
      rw [List.flatMap_cons] at written
      rcases List.append_eq_append_iff.mp written with
        ⟨passed, beforeEq, rest⟩ | ⟨inside, entityEq, rest⟩
      · exact ih rest
      · cases inside with
        | nil => exact @ih [] rest.symm
        | cons first inside =>
            rw [List.cons_append] at rest
            obtain ⟨rfl, rfl⟩ := List.cons.inj rest
            obtain ⟨rfl, escaped⟩ := eq_nil_of_entity_eq entityEq
            exact ⟨char, escaped, ⟨chars.flatMap entity, by rw [entityEq]; rfl⟩⟩

/-- Escaping writes an entity for each of four characters and nothing else, in one pass.  The
parts of a text are escaped by themselves, what is written holds no mark of a tag, and every
ampersand in it begins an entity.  Reading the entities in one pass gives the text back, so
different texts are written differently. -/
theorem escape_is_character_map (text : String) :
    (escape text).toList = text.toList.flatMap entity ∧
      (∀ more, escape (text ++ more) = escape text ++ escape more) ∧
      ('<' ∉ (escape text).toList ∧ '>' ∉ (escape text).toList ∧
        '"' ∉ (escape text).toList) ∧
      (∀ before behind, (escape text).toList = before ++ '&' :: behind →
        ∃ char ∈ ['&', '<', '>', '"'], entity char <+: '&' :: behind) ∧
      String.ofList (unescape (escape text).toList) = text ∧
      ∀ other, escape other = escape text → other = text := by
  refine ⟨toList_escape text, escape_append text, not_mem_escape text, ?_, ?_, ?_⟩
  · intro before behind written
    rw [toList_escape] at written
    exact exists_entity_of_flatMap_eq written
  · rw [unescape_escape, String.ofList_toList]
  · intro other same
    have read := unescape_escape other
    rw [same, unescape_escape] at read
    exact String.toList_inj.mp read.symm

/-- A text that looks escaped is escaped once more, and its ampersand begins an entity. -/
theorem escape_is_character_map_entityInText :
    escape "\"&lt;" = "&quot;&amp;lt;" ∧
      (escape "\"&lt;").toList = "&quot;".toList ++ '&' :: "amp;lt;".toList ∧
      (∃ char ∈ ['&', '<', '>', '"'], entity char <+: '&' :: "amp;lt;".toList) ∧
      String.ofList (unescape (escape "\"&lt;").toList) = "\"&lt;" := by
  obtain ⟨_, _, _, starts, read, _⟩ := escape_is_character_map "\"&lt;"
  have written : (escape "\"&lt;").toList = "&quot;".toList ++ '&' :: "amp;lt;".toList := by
    rw [toList_escape]
    decide
  exact ⟨String.toList_inj.mp written, written, starts _ _ written, read⟩

end WikiPress.Html
