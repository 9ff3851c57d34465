import WikiPress.Markdown.InlineEvent

/-!
# Phrases and emphasis

Once code spans, links and HTML have been found, running text is a sequence of
phrases.  Runs of emphasis marks are still open; this file pairs them.  A run
that may end emphasis is paired with the nearest earlier run of the same mark
that may begin it, from the inside out: two marks of each make strong emphasis,
one makes emphasis, and tildes strike through.  Marks without a partner are text.
-/

namespace WikiPress.Markdown

/-- A part of running text. -/
inductive Phrase where
  | plain (event : InlineEvent)
  /-- A line break by a backslash. -/
  | backslashBreak (span : Span)
  /-- Equal marks of emphasis from an offset on, and whether they may begin or end
  it. -/
  | run (mark : Char) (start length : Nat) (opens closes : Bool)
  /-- A link or an image. -/
  | linked (span : Span) (element : Element) (phrases : List Phrase)
deriving Inhabited

/-- Marks that may begin emphasis, with what has been read behind them. -/
structure Opener where
  mark : Char
  /-- Where the marks begin that are left. -/
  start : Nat
  count : Nat
  /-- The number of marks of the whole run. -/
  length : Nat
  /-- Whether the run may also end emphasis. -/
  mayClose : Bool
  /-- The events behind the marks, the last first. -/
  events : List InlineEvent := []

/-- Marks as text, one event each, the last first. -/
def markTexts (mark : Char) (start count : Nat) : List InlineEvent :=
  ((List.range count).map fun index =>
    { span := ⟨start + index, start + index + 1⟩, kind := .text mark.toString }).reverse

/-- The events from an opener on when its marks are text, the last first. -/
def Opener.asText (opener : Opener) : List InlineEvent :=
  opener.events ++ markTexts opener.mark opener.start opener.count

/-- The pairing of emphasis marks up to some point. -/
structure Pairing where
  /-- The events in front of the first opener, the last first. -/
  events : List InlineEvent := []
  /-- The openers, the last first. -/
  openers : List Opener := []
  /-- The number of first openers that tildes are not paired with any more, because
  a search for a partner has failed behind them. -/
  tildeFloor : Nat := 0

namespace Pairing

/-- Add events, the last first. -/
def add (pairing : Pairing) (events : List InlineEvent) : Pairing :=
  match pairing.openers with
  | [] => { pairing with events := events ++ pairing.events }
  | opener :: openers =>
    { pairing with openers := { opener with events := events ++ opener.events } :: openers }

/-- Whether a run may be paired with an opener.  When one of them may both begin
and end emphasis, the lengths of the runs must not add up to a multiple of three,
unless both are one.  Tildes need runs of one length. -/
def pairs (mark : Char) (length : Nat) (mayOpen : Bool) (opener : Opener) : Bool :=
  opener.mark == mark
    && (mark != '~' || opener.length == length)
    && ((!mayOpen && !opener.mayClose) || (length + opener.length) % 3 != 0 || length % 3 == 0)

/-- Split openers, the last first, at the first that passes a test. -/
def splitOpeners (test : Opener → Bool) : List Opener → Option (List Opener × Opener × List Opener)
  | [] => none
  | opener :: openers =>
    if test opener then
      some ([], opener, openers)
    else
      (splitOpeners test openers).map fun (later, found, earlier) =>
        (opener :: later, found, earlier)

/-- Wrap events, the last first, in elements, from the inside out; `openEnd` is
behind the last mark that begins them and `closeStart` is at the first mark that
ends them. -/
def wrap (mark : Char) : (openEnd closeStart count : Nat) → List InlineEvent → List InlineEvent
  | _, _, 0, events => events
  | openEnd, closeStart, count + 1, events =>
    let width := if count = 0 then 1 else 2
    let element : Element :=
      if mark = '~' then .strikethrough else if width = 2 then .strong else .emphasis
    let span : Span := ⟨openEnd - width, closeStart + width⟩
    let wrapped :=
      { span, kind := .leave element.kind } :: (events ++ [{ span, kind := .enter element }])
    wrap mark (openEnd - width) (closeStart + width) (count + 1 - width) wrapped
termination_by _ _ count _ => count
decreasing_by
  split <;> omega

/-- Pair a run that may end emphasis, as often as it has marks: the pairing, and
the number of marks that are left at the end of the run. -/
def close (mark : Char) (length : Nat) (mayOpen : Bool) (stop : Nat) :
    Nat → Pairing → Nat → Pairing × Nat
  | 0, pairing, count => (pairing, count)
  | fuel + 1, pairing, count =>
    let height := pairing.openers.length
    let reachable := if mark = '~' then height - pairing.tildeFloor else height
    match splitOpeners (pairs mark length mayOpen) (pairing.openers.take reachable) with
    | none =>
      let tildeFloor := if mark = '~' then height else pairing.tildeFloor
      ({ pairing with tildeFloor }, count)
    | some (later, opener, earlier) =>
      let earlier := earlier ++ pairing.openers.drop reachable
      let paired := min count opener.count
      let inner := (later.map Opener.asText).flatten ++ opener.events
      let element := wrap mark (opener.start + opener.count) (stop - count) paired inner
      let left := opener.count - paired
      let below : Pairing :=
        { pairing with openers := earlier, tildeFloor := min pairing.tildeFloor earlier.length }
      let pairing :=
        if left = 0 then below.add element
        else { below with openers := { opener with count := left, events := element } :: earlier }
      if count = paired then (pairing, 0)
      else close mark length mayOpen stop fuel pairing (count - paired)

/-- Read a run of marks. -/
def addRun (pairing : Pairing) (mark : Char) (start length : Nat) (opens closes : Bool) : Pairing :=
  let stop := start + length
  let (pairing, count) :=
    if closes then close mark length opens stop length pairing length else (pairing, length)
  if count = 0 then
    pairing
  else if opens then
    let opener : Opener := { mark, start := stop - count, count, length, mayClose := closes }
    { pairing with openers := opener :: pairing.openers }
  else
    pairing.add (markTexts mark (stop - count) count)

/-- The events, when marks without a partner are text. -/
def finish (pairing : Pairing) : List InlineEvent :=
  ((pairing.openers.map Opener.asText).flatten ++ pairing.events).reverse

end Pairing

namespace Phrase

/-- Whether a phrase is a run of marks. -/
def isRun : Phrase → Bool
  | .run .. => true
  | _ => false

/-- The text that a backslash is at the end of a phrase, where it makes no line
break. -/
def breakAsText : Phrase → Phrase
  | .backslashBreak span => .plain { span, kind := .text "\\" }
  | other => other

/-- The phrases of a link.  A backslash at their end breaks no line, if the text
of the link has emphasis marks at all. -/
def settle (phrases : List Phrase) : List Phrase :=
  if phrases.any isRun then
    match phrases.getLast? with
    | some last => phrases.dropLast ++ [last.breakAsText]
    | none => phrases
  else
    phrases

mutual

/-- The events of a phrase that is no run of marks, the last first. -/
def events : Phrase → List InlineEvent
  | .plain event => [event]
  | .backslashBreak span => [{ span, kind := .hardBreak }]
  | .run mark start length _ _ => markTexts mark start length
  | .linked span element phrases =>
    { span, kind := .leave element.kind } ::
      ((eventsOf phrases {}).reverse ++ [{ span, kind := .enter element }])

/-- The events of phrases behind a pairing of marks. -/
def eventsOf : List Phrase → Pairing → List InlineEvent
  | [], pairing => pairing.finish
  | phrase :: phrases, pairing =>
    match phrase with
    | .run mark start length opens closes =>
      eventsOf phrases (pairing.addRun mark start length opens closes)
    | .plain event => eventsOf phrases (pairing.add [event])
    | .backslashBreak span => eventsOf phrases (pairing.add [{ span, kind := .hardBreak }])
    | .linked span element inner =>
      eventsOf phrases (pairing.add (events (.linked span element inner)))

end

end Phrase

end WikiPress.Markdown
