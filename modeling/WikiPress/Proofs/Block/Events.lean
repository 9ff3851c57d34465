import WikiPress.Markdown.Event

/-!
# Nested events and their running text

Events are nested if every block that is entered is left again, the last one first, and
if blocks hold what blocks of their kind can hold: running text stands in paragraphs,
headings and cells, which hold nothing else, and directly in list items, where blocks may
stand beside it.

The running text of nested events falls into runs.  A paragraph, a heading or a cell is
one run, even if it is empty; elsewhere a run is a stretch of inline events that is as
long as possible.
-/

namespace WikiPress.Markdown

/-! ## Nested events -/

/-- Where events stand, as far as it decides which events may stand there. -/
inductive Place where
  /-- The document, or a block that holds blocks. -/
  | blocks
  /-- A list item, which may hold running text beside blocks. -/
  | item
  /-- A paragraph, a heading or a cell. -/
  | text
  /-- A code block or an HTML block. -/
  | literal
  | table
  /-- A row of a table, or its head. -/
  | row
deriving DecidableEq, Repr

namespace Place

/-- Whether blocks stand at a place. -/
def holdsBlocks : Place → Bool
  | blocks | item => true
  | _ => false

/-- Whether running text stands at a place. -/
def holdsText : Place → Bool
  | item | text => true
  | _ => false

/-- Whether a block may stand at a place.  Rows stand in tables and cells in rows, and
nothing else does. -/
def admits (place : Place) : BlockTag → Bool
  | .tableHead | .tableRow => place = table
  | .tableCell => place = row
  | _ => place.holdsBlocks

end Place

/-- The place inside a block. -/
def BlockTag.place : BlockTag → Place
  | .paragraph | .heading _ _ | .tableCell => .text
  | .code _ | .html => .literal
  | .item => .item
  | .table _ => .table
  | .tableHead | .tableRow => .row
  | .quote | .list _ => .blocks

namespace Event

/-- Events that may stand at a place, where every block that is entered is left. -/
inductive Nested : Place → List Event → Prop where
  | nil (place : Place) : Nested place []
  | block {place : Place} {tag : BlockTag} {content rest : List Event}
      (admits : place.admits tag = true) (inside : Nested tag.place content)
      (behind : Nested place rest) : Nested place (Event.inside tag content ++ rest)
  | inline {place : Place} (event : InlineEvent) {rest : List Event}
      (holdsText : place.holdsText = true) (behind : Nested place rest) :
      Nested place (.inline event :: rest)
  | thematicBreak {place : Place} {rest : List Event} (holdsBlocks : place.holdsBlocks = true)
      (behind : Nested place rest) : Nested place (.thematicBreak :: rest)
  | literal {place : Place} (content : String) {rest : List Event}
      (allowed : place = .literal ∨ place.holdsBlocks = true)
      (behind : Nested place rest) : Nested place (.literal content :: rest)

theorem Nested.inside {place : Place} {tag : BlockTag} {content : List Event}
    (admits : place.admits tag = true) (nested : Nested tag.place content) :
    Nested place (Event.inside tag content) := by
  have alone : Nested place (Event.inside tag content ++ []) :=
    .block admits nested (.nil place)
  rw [List.append_nil] at alone
  exact alone

/-- A text block holds inline events only. -/
theorem Nested.eq_inlines {events : List Event} (nested : Nested .text events) :
    ∃ inlines : List InlineEvent, events = inlines.map .inline := by
  generalize placeEq : Place.text = place at nested
  induction nested with
  | nil place => exact ⟨[], rfl⟩
  | @block place tag content rest admits =>
      subst placeEq
      cases tag <;> cases admits
  | inline event holdsText behind ih =>
      obtain ⟨inlines, rfl⟩ := ih placeEq
      exact ⟨event :: inlines, rfl⟩
  | thematicBreak holdsBlocks =>
      subst placeEq
      cases holdsBlocks
  | literal content allowed =>
      subst placeEq
      rcases allowed with place | holdsBlocks
      · cases place
      · cases holdsBlocks

/-- A code block or an HTML block holds literal text only. -/
theorem Nested.eq_literals {events : List Event} (nested : Nested .literal events) :
    ∃ contents : List String, events = contents.map .literal := by
  generalize placeEq : Place.literal = place at nested
  induction nested with
  | nil place => exact ⟨[], rfl⟩
  | @block place tag content rest admits =>
      subst placeEq
      cases tag <;> cases admits
  | inline event holdsText =>
      subst placeEq
      cases holdsText
  | thematicBreak holdsBlocks =>
      subst placeEq
      cases holdsBlocks
  | literal content allowed behind ih =>
      obtain ⟨contents, rfl⟩ := ih placeEq
      exact ⟨content :: contents, rfl⟩

/-! ## Runs -/

/-- The inline event that an event is. -/
def inline? : Event → Option InlineEvent
  | .inline event => some event
  | _ => none

/-- The inline events in front of all other events. -/
def leadingInlines : List Event → List InlineEvent
  | .inline event :: rest => event :: leadingInlines rest
  | _ => []

/-- Inline events that belong together. -/
structure Run where
  /-- Whether they stand directly in a list item. -/
  isBare : Bool
  events : List InlineEvent
deriving DecidableEq, Repr

/-- The runs of events.  An inline event in front belongs to the run before unless a run
may begin with it. -/
def runsFrom (mayBegin : Bool) : List Event → List Run
  | [] => []
  | .inline event :: rest =>
    (if mayBegin then [⟨true, event :: leadingInlines rest⟩] else []) ++ runsFrom false rest
  | .enter tag :: rest =>
    if tag.place = .text then ⟨false, leadingInlines rest⟩ :: runsFrom false rest
    else runsFrom true rest
  | _ :: rest => runsFrom true rest

/-- The runs of events: a text block begins one, and so does every other inline event that
stands behind none. -/
def runs (events : List Event) : List Run :=
  runsFrom true events

theorem leadingInlines_append (content : List Event) {event : Event}
    (other : event.inline? = none) (rest : List Event) :
    leadingInlines (content ++ event :: rest) = leadingInlines content := by
  induction content with
  | nil =>
      cases event with
      | inline event => cases other
      | _ => rfl
  | cons first content ih =>
      cases first with
      | inline first => exact congrArg (first :: ·) ih
      | _ => rfl

/-- A run ends in front of an event that is no inline event. -/
theorem runsFrom_append (mayBegin : Bool) (content : List Event) {event : Event}
    (other : event.inline? = none) (rest : List Event) :
    runsFrom mayBegin (content ++ event :: rest) =
      runsFrom mayBegin content ++ runs (event :: rest) := by
  induction content generalizing mayBegin with
  | nil =>
      cases event with
      | inline event => cases other
      | _ => cases mayBegin <;> rfl
  | cons first content ih =>
      cases first with
      | enter tag =>
          simp only [List.cons_append, runsFrom, leadingInlines_append content other, ih]
          split <;> rfl
      | inline first =>
          simp only [List.cons_append, runsFrom, leadingInlines_append content other, ih,
            List.append_assoc]
      | _ => exact ih true

/-- A run ends where a block is left. -/
theorem runsFrom_append_leave (mayBegin : Bool) (content : List Event) (kind : BlockTag.Kind)
    (rest : List Event) :
    runsFrom mayBegin (content ++ .leave kind :: rest) =
      runsFrom mayBegin content ++ runs rest :=
  runsFrom_append mayBegin content rfl rest

/-- The runs of a block stand by themselves. -/
theorem runs_append_inside (tag : BlockTag) (content rest : List Event) :
    runs (inside tag content ++ rest) = runs (inside tag content) ++ runs rest := by
  have split (behind : List Event) : runs (inside tag content ++ behind) =
      runs (.enter tag :: content) ++ runs behind := by
    unfold inside
    rw [List.cons_append, List.append_assoc, List.singleton_append, ← List.cons_append]
    exact runsFrom_append_leave true _ _ _
  have alone := split []
  rw [List.append_nil] at alone
  rw [split, alone]
  exact congrArg (· ++ runs rest) (List.append_nil _).symm

@[simp]
theorem runsFrom_false_inlines (inlines : List InlineEvent) :
    runsFrom false (inlines.map .inline) = [] := by
  induction inlines with
  | nil => rfl
  | cons event inlines ih => exact ih

@[simp]
theorem leadingInlines_inlines (inlines : List InlineEvent) :
    leadingInlines (inlines.map .inline) = inlines := by
  induction inlines with
  | nil => rfl
  | cons event inlines ih => exact congrArg (event :: ·) ih

/-- A text block is a run. -/
theorem runs_inside_text {tag : BlockTag} (isText : tag.place = .text)
    (inlines : List InlineEvent) (rest : List Event) :
    runs (inside tag (inlines.map .inline) ++ rest) = ⟨false, inlines⟩ :: runs rest := by
  unfold runs inside
  rw [List.cons_append, List.append_assoc, List.singleton_append, runsFrom, if_pos isText,
    leadingInlines_append _ rfl, leadingInlines_inlines, runsFrom_append_leave,
    runsFrom_false_inlines]
  rfl

/-- Every other block has the runs of its content. -/
theorem runs_inside {tag : BlockTag} (notText : tag.place ≠ .text) (content rest : List Event) :
    runs (inside tag content ++ rest) = runs content ++ runs rest := by
  unfold runs inside
  rw [List.cons_append, List.append_assoc, List.singleton_append, runsFrom, if_neg notText,
    runsFrom_append_leave]
  rfl

@[simp]
theorem runs_literals (contents : List String) : runs (contents.map .literal) = [] := by
  induction contents with
  | nil => rfl
  | cons content contents ih => exact ih

/-- The runs of events behind inline events that are collected. -/
def runsBehind (pending : List InlineEvent) (events : List Event) : List Run :=
  if pending = [] then runs events
  else ⟨true, pending ++ leadingInlines events⟩ :: runsFrom false events

@[simp]
theorem runsBehind_inline (pending : List InlineEvent) (event : InlineEvent)
    (rest : List Event) :
    runsBehind pending (.inline event :: rest) = runsBehind (pending ++ [event]) rest := by
  have collected : pending ++ [event] ≠ [] := by simp
  unfold runsBehind
  rw [if_neg collected]
  by_cases none : pending = []
  · rw [if_pos none, none]
    rfl
  · rw [if_neg none, leadingInlines, List.append_cons]
    rfl

/-- An event that is no inline event ends the run before it. -/
theorem runsBehind_of_inline?_eq_none {pending : List InlineEvent} {event : Event}
    (other : event.inline? = none) (rest : List Event) :
    runsBehind pending (event :: rest) =
      runsBehind pending [] ++ runs (event :: rest) := by
  unfold runsBehind
  by_cases none : pending = []
  · rw [if_pos none, if_pos none]
    rfl
  · rw [if_neg none, if_neg none]
    cases event with
    | inline event => cases other
    | _ => rfl

/-- Every inline event is in exactly one run, in order. -/
theorem flatMap_runsFrom (mayBegin : Bool) (events : List Event) :
    (if mayBegin then [] else leadingInlines events) ++
        (runsFrom mayBegin events).flatMap Run.events = events.filterMap inline? := by
  induction events generalizing mayBegin with
  | nil => cases mayBegin <;> rfl
  | cons event rest ih =>
      have behind := ih false
      have fresh := ih true
      simp only [Bool.false_eq_true, if_false, if_true, List.nil_append] at behind fresh
      cases event with
      | inline event =>
          have first : (Event.inline event).inline? = some event := rfl
          rw [List.filterMap_cons_some first, ← behind]
          cases mayBegin <;> rfl
      | enter tag =>
          rw [List.filterMap_cons_none rfl]
          by_cases isText : tag.place = .text
          · rw [← behind, runsFrom, if_pos isText]
            cases mayBegin <;> rfl
          · rw [← fresh, runsFrom, if_neg isText]
            cases mayBegin <;> rfl
      | _ =>
          rw [List.filterMap_cons_none rfl, ← fresh]
          cases mayBegin <;> rfl

@[simp]
theorem flatMap_runs (events : List Event) :
    (runs events).flatMap Run.events = events.filterMap inline? :=
  flatMap_runsFrom true events

end Event

end WikiPress.Markdown
