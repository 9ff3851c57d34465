import WikiPress.Text.Position

/-!
# Events of running text

Running text that has been read is a sequence of events.  Emphasis, links and
images are entered and left; everything else stands alone.  Every event comes
with the range of the source that it was read from; for an element that is
entered and left, both events have the range of the whole element.
-/

namespace WikiPress.Markdown

/-- What running text may be nested in. -/
inductive Element where
  | emphasis | strong | strikethrough
  | link (target title : String)
  | image (target title : String)
deriving DecidableEq, Repr, Inhabited

/-- The kind of an element, which tells which one is left. -/
inductive Element.Kind where
  | emphasis | strong | strikethrough | link | image
deriving DecidableEq, Repr, Inhabited

/-- The kind of an element. -/
def Element.kind : Element → Element.Kind
  | .emphasis => .emphasis
  | .strong => .strong
  | .strikethrough => .strikethrough
  | .link _ _ => .link
  | .image _ _ => .image

/-- What happens in running text. -/
inductive InlineEvent.Kind where
  | text (content : String)
  | code (content : String)
  | html (content : String)
  | softBreak
  | hardBreak
  | enter (element : Element)
  | leave (kind : Element.Kind)
deriving DecidableEq, Repr, Inhabited

/-- An event of running text with the range of the source that it comes from. -/
structure InlineEvent where
  span : Span
  kind : InlineEvent.Kind
deriving DecidableEq, Repr, Inhabited

end WikiPress.Markdown
