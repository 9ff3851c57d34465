import WikiPress.Markdown.Phrase

/-!
# Events of text and emphasis

Pairing the marks of emphasis wraps events in elements and turns the marks that are left
into text.  Whatever the marks are, every element that is entered in between is left
again, the last one first: the events stay calm.
-/

namespace WikiPress.Markdown

/-- The elements that marks of emphasis make. -/
def Element.isEmphasis : Element → Bool
  | .emphasis | .strong | .strikethrough => true
  | .link _ _ | .image _ _ => false

/-- Events of text, code and emphasis, the last first, of which none is left that has not
been entered and none is entered that is not left. -/
inductive InlineEvent.Calm : List InlineEvent → Prop where
  | nil : Calm []
  | text (span : Span) (content : String) {earlier : List InlineEvent} (calm : Calm earlier) :
      Calm (⟨span, .text content⟩ :: earlier)
  | code (span : Span) (content : String) {earlier : List InlineEvent} (calm : Calm earlier) :
      Calm (⟨span, .code content⟩ :: earlier)
  | element (span : Span) {element : Element} (isEmphasis : element.isEmphasis = true)
      {inner earlier : List InlineEvent} (innerCalm : Calm inner) (calm : Calm earlier) :
      Calm (⟨span, .leave element.kind⟩ :: (inner ++ ⟨span, .enter element⟩ :: earlier))

/-- The events of a link without a title, around text, code and emphasis. -/
def InlineEvent.IsLink (span : Span) (target : String) (events : List InlineEvent) : Prop :=
  ∃ inside, Calm inside.reverse ∧
    events = ⟨span, .enter (.link target "")⟩ :: (inside ++ [⟨span, .leave .link⟩])

/-- A phrase that is text, code or marks of emphasis. -/
inductive Phrase.Calm : Phrase → Prop where
  | text (span : Span) (content : String) : Calm (.plain ⟨span, .text content⟩)
  | code (span : Span) (content : String) : Calm (.plain ⟨span, .code content⟩)
  | run (mark : Char) (start length : Nat) (opens closes : Bool) :
      Calm (.run mark start length opens closes)

open InlineEvent (Calm)

theorem InlineEvent.Calm.append {later earlier : List InlineEvent} (laterCalm : Calm later)
    (calm : Calm earlier) : Calm (later ++ earlier) := by
  induction laterCalm with
  | nil => exact calm
  | text span content _ ih => exact .text span content ih
  | code span content _ ih => exact .code span content ih
  | element span isEmphasis innerCalm _ _ ih =>
      rw [List.cons_append, List.append_assoc, List.cons_append]
      exact .element span isEmphasis innerCalm ih

theorem InlineEvent.Calm.flatten {parts : List (List InlineEvent)}
    (calm : ∀ part ∈ parts, Calm part) : Calm parts.flatten := by
  induction parts with
  | nil => exact .nil
  | cons part parts ih =>
      obtain ⟨partCalm, restCalm⟩ := List.forall_mem_cons.mp calm
      exact partCalm.append (ih restCalm)

theorem calm_markTexts (mark : Char) (start count : Nat) : Calm (markTexts mark start count) := by
  have texts (indices : List Nat) : Calm ((indices.map fun index =>
      ({ span := ⟨start + index, start + index + 1⟩, kind := .text mark.toString } :
        InlineEvent)).reverse) := by
    induction indices with
    | nil => exact .nil
    | cons index indices ih =>
        rw [List.map_cons, List.reverse_cons]
        exact ih.append (.text _ _ .nil)
  exact texts _

theorem Opener.calm_asText {opener : Opener} (calm : Calm opener.events) :
    Calm opener.asText :=
  calm.append (calm_markTexts _ _ _)

namespace Pairing

/-- All events of the pairing are calm, also those behind an opener. -/
structure Calm (pairing : Pairing) : Prop where
  events : InlineEvent.Calm pairing.events
  openers : ∀ opener ∈ pairing.openers, InlineEvent.Calm opener.events

theorem calm_empty : Calm {} :=
  ⟨.nil, nofun⟩

variable {pairing : Pairing}

theorem Calm.add (calm : pairing.Calm) {events : List InlineEvent}
    (eventsCalm : InlineEvent.Calm events) : (pairing.add events).Calm := by
  unfold Pairing.add
  cases openersEq : pairing.openers with
  | nil => exact ⟨eventsCalm.append calm.events, nofun⟩
  | cons opener openers =>
      obtain ⟨openerCalm, restCalm⟩ := List.forall_mem_cons.mp (openersEq ▸ calm.openers)
      exact ⟨calm.events, List.forall_mem_cons.mpr ⟨eventsCalm.append openerCalm, restCalm⟩⟩

theorem calm_wrap (mark : Char) (openEnd closeStart count : Nat) {events : List InlineEvent}
    (calm : InlineEvent.Calm events) :
    InlineEvent.Calm (wrap mark openEnd closeStart count events) := by
  fun_induction wrap mark openEnd closeStart count events with
  | case1 => exact calm
  | case2 openEnd closeStart count events width element span wrapped ih =>
      have isEmphasis : element.isEmphasis = true := by
        simp only [element]
        split
        · rfl
        · split <;> rfl
      exact ih (.element span isEmphasis calm .nil)

/-- Openers are split around the one that is found. -/
theorem eq_of_splitOpeners {test : Opener → Bool} {openers later earlier : List Opener}
    {found : Opener} (split : splitOpeners test openers = some (later, found, earlier)) :
    openers = later ++ found :: earlier := by
  induction openers generalizing later with
  | nil => cases split
  | cons opener openers ih =>
      unfold splitOpeners at split
      split at split
      · cases split
        rfl
      · obtain ⟨⟨laterRest, other, behind⟩, splitRest, partsEq⟩ :=
          Option.map_eq_some_iff.mp split
        cases partsEq
        rw [ih splitRest]
        rfl

theorem Calm.close (calm : pairing.Calm) (mark : Char) (length : Nat) (mayOpen : Bool)
    (stop fuel count : Nat) : (pairing.close mark length mayOpen stop fuel count).1.Calm := by
  induction fuel generalizing pairing count with
  | zero => exact calm
  | succ fuel ih =>
      unfold Pairing.close
      extract_lets height reachable
      split
      · exact ⟨calm.events, calm.openers⟩
      · rename_i later opener earlier found
        have openersEq : pairing.openers =
            later ++ opener :: (earlier ++ pairing.openers.drop reachable) := by
          rw [← List.cons_append, ← List.append_assoc, ← eq_of_splitOpeners found,
            List.take_append_drop]
        have openersCalm := openersEq ▸ calm.openers
        obtain ⟨laterCalm, behindCalm⟩ := List.forall_mem_append.mp openersCalm
        obtain ⟨openerCalm, earlierCalm⟩ := List.forall_mem_cons.mp behindCalm
        have innerCalm : InlineEvent.Calm ((later.map Opener.asText).flatten ++ opener.events) := by
          refine InlineEvent.Calm.append (.flatten ?_) openerCalm
          intro part member
          obtain ⟨other, otherMember, rfl⟩ := List.mem_map.mp member
          exact Opener.calm_asText (laterCalm other otherMember)
        have elementCalm (openEnd closeStart width : Nat) :=
          calm_wrap mark openEnd closeStart width innerCalm
        extract_lets outer paired inner element left below joined
        have belowCalm : below.Calm := ⟨calm.events, earlierCalm⟩
        have joinedCalm : joined.Calm := by
          simp only [joined]
          split
          · exact belowCalm.add (elementCalm _ _ _)
          · exact ⟨calm.events, List.forall_mem_cons.mpr ⟨elementCalm _ _ _, earlierCalm⟩⟩
        split
        · exact joinedCalm
        · exact ih joinedCalm _

theorem Calm.addRun (calm : pairing.Calm) (mark : Char) (start length : Nat)
    (opens closes : Bool) : (pairing.addRun mark start length opens closes).Calm := by
  have closedCalm : (if closes then pairing.close mark length opens (start + length) length length
      else (pairing, length)).1.Calm := by
    split
    · exact calm.close mark length opens (start + length) length length
    · exact calm
  unfold Pairing.addRun
  extract_lets stop
  change (if closes then pairing.close mark length opens stop length length
      else (pairing, length)).1.Calm at closedCalm
  generalize (if closes then pairing.close mark length opens stop length length
      else (pairing, length)) = result at closedCalm ⊢
  obtain ⟨closed, count⟩ := result
  dsimp only
  split
  · exact closedCalm
  · split
    · exact ⟨closedCalm.events, List.forall_mem_cons.mpr ⟨.nil, closedCalm.openers⟩⟩
    · exact closedCalm.add (calm_markTexts _ _ _)

theorem Calm.finish (calm : pairing.Calm) : InlineEvent.Calm pairing.finish.reverse := by
  unfold Pairing.finish
  rw [List.reverse_reverse]
  refine InlineEvent.Calm.append (.flatten ?_) calm.events
  intro part member
  obtain ⟨opener, openerMember, rfl⟩ := List.mem_map.mp member
  exact Opener.calm_asText (calm.openers opener openerMember)

end Pairing

/-- The events of phrases of text, code and emphasis are calm. -/
theorem Phrase.calm_eventsOf {phrases : List Phrase} (phrasesCalm : ∀ phrase ∈ phrases, phrase.Calm)
    {pairing : Pairing} (calm : pairing.Calm) :
    InlineEvent.Calm (eventsOf phrases pairing).reverse := by
  induction phrases generalizing pairing with
  | nil =>
      rw [eventsOf]
      exact calm.finish
  | cons phrase phrases ih =>
      obtain ⟨phraseCalm, restCalm⟩ := List.forall_mem_cons.mp phrasesCalm
      cases phraseCalm with
      | text span content =>
          rw [eventsOf]
          exact ih restCalm (calm.add (.text span content .nil))
      | code span content =>
          rw [eventsOf]
          exact ih restCalm (calm.add (.code span content .nil))
      | run mark start length opens closes =>
          rw [eventsOf]
          exact ih restCalm (calm.addRun mark start length opens closes)

theorem Phrase.calm_settle {phrases : List Phrase} (calm : ∀ phrase ∈ phrases, phrase.Calm) :
    ∀ phrase ∈ settle phrases, phrase.Calm := by
  unfold settle
  split
  · split
    · rename_i last isLast
      intro phrase member
      rcases List.mem_append.mp member with before | atEnd
      · exact calm phrase (List.dropLast_subset _ before)
      · rw [List.mem_singleton.mp atEnd]
        have lastCalm := calm last (List.mem_of_getLast? isLast)
        cases lastCalm with
        | text span content => exact .text span content
        | code span content => exact .code span content
        | run mark start length opens closes => exact .run mark start length opens closes
    · exact calm
  · exact calm

end WikiPress.Markdown
