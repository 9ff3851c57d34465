import WikiPress.Yaml.Token

/-!
# YAML documents

A document is a node: a scalar, a sequence or a mapping.  This file reads the
node of a stream from its tokens.  Aliases are replaced by the nodes that they
stand for, so that no reader of a document meets them.
-/

namespace WikiPress.Yaml

/-- A node of a document. -/
inductive Node where
  | scalar (value : String) (style : Style) (tag : Option String)
  | sequence (items : List Node)
  | mapping (entries : List (Node × Node))
deriving Inhabited

/-- The node where none is written. -/
def Node.empty : Node :=
  .scalar "" .plain none

/-- What a document has said before some token.  A node that is named gets the
number of the names known before it, and a name stands for the node that got its
number last.  A name that is used again gets a new number; the first new name
behind it gets that number, too. -/
structure Context where
  /-- The tag handles with what they stand for. -/
  handles : List (String × String)
  /-- The names with their numbers. -/
  numbers : List (String × Nat) := []
  /-- The nodes by their numbers, the last first; one that is being read is not yet
  there. -/
  named : List (Nat × Option Node) := []

namespace Context

/-- Give a name to the node that begins. -/
def define (context : Context) (name : String) : Context :=
  let number := context.numbers.length
  { context with
    numbers := (name, number) :: context.numbers.filter (·.1 ≠ name)
    named := (number, none) :: context.named }

/-- Supply the node that began when a number of nodes had been named. -/
def fill (context : Context) (before : Nat) (node : Node) : Context :=
  { context with
    named := context.named.modify (context.named.length - 1 - before) fun (number, _) =>
      (number, some node) }

/-- The node that a name stands for. -/
def find? (context : Context) (name : String) : Option Node := do
  let number ← context.numbers.lookup name
  (context.named.lookup number).join

end Context

/-- What is read from tokens: a value, the tokens behind it, and what the document
has said so far. -/
abbrev Read (α : Type) : Type :=
  Option (α × List Token × Context)

namespace Node

/-- The properties in front of a node: its anchor and its tag. -/
structure Properties where
  anchor : Option String := none
  tag : Option String := none

/-- The full name of a tag. -/
def resolveTag? (handles : List (String × String)) (handle suffix : String) : Option String :=
  if handle.isEmpty then some suffix else (handles.lookup handle).map (· ++ suffix)

/-- Read the properties of a node, at most one of each kind. -/
def properties? (context : Context) : List Token → Option (Properties × List Token)
  | .anchor name :: .tag handle suffix :: rest =>
    (resolveTag? context.handles handle suffix).map fun tag =>
      ({ anchor := some name, tag := some tag }, rest)
  | .tag handle suffix :: .anchor name :: rest =>
    (resolveTag? context.handles handle suffix).map fun tag =>
      ({ anchor := some name, tag := some tag }, rest)
  | .anchor name :: rest => some ({ anchor := some name }, rest)
  | .tag handle suffix :: rest =>
    (resolveTag? context.handles handle suffix).map fun tag => ({ tag := some tag }, rest)
  | tokens => some ({}, tokens)

/-- Where a node may stand: in a flow collection, in a block collection, or in a
block mapping, whose values may be sequences that are not indented. -/
inductive Place where
  | flow | block | value
deriving DecidableEq, Repr

/-- Whether a token ends an entry of a block mapping that has nothing in it. -/
def endsEntry : Token → Bool
  | .key => true
  | .value => true
  | .blockEnd => true
  | _ => false

mutual

/-- Read a node. -/
def read? : Nat → Place → Context → List Token → Read Node
  | 0, _, _, _ => none
  | fuel + 1, place, context, tokens =>
    match tokens with
    | .alias name :: rest =>
      (context.find? name).map fun node => (node, rest, context)
    | _ =>
      match properties? context tokens with
      | none => none
      | some (properties, rest) =>
        match properties.anchor with
        | none => readContent? fuel place properties context rest
        | some name =>
          match readContent? fuel place properties (context.define name) rest with
          | none => none
          | some (node, rest, behind) => some (node, rest, behind.fill context.named.length node)

/-- Read a node behind its properties. -/
def readContent? : Nat → Place → Properties → Context → List Token → Read Node
  | 0, _, _, _, _ => none
  | fuel + 1, place, properties, context, tokens =>
    match tokens with
    | .scalar value style :: rest => some (.scalar value style properties.tag, rest, context)
    | .flowSequenceStart :: rest => readFlowItems? fuel [] context rest
    | .flowMappingStart :: rest => readFlowEntries? fuel [] context rest
    | _ =>
      let written : Option (Read Node) := match tokens with
        | .blockEntry :: _ =>
          if place = .value then some (readLooseItems? fuel [] context tokens) else none
        | .blockSequenceStart :: rest =>
          if place = .flow then none else some (readItems? fuel [] context rest)
        | .blockMappingStart :: rest =>
          if place = .flow then none else some (readEntries? fuel [] context rest)
        | _ => none
      match written with
      | some node => node
      | none =>
        if properties.anchor.isSome || properties.tag.isSome then
          some (.scalar "" .plain properties.tag, tokens, context)
        else
          none

/-- Read the items of a block sequence; `items` are those before, the last first. -/
def readItems? : Nat → List Node → Context → List Token → Read Node
  | 0, _, _, _ => none
  | fuel + 1, items, context, tokens =>
    match tokens with
    | .blockEnd :: rest => some (.sequence items.reverse, rest, context)
    | .blockEntry :: rest =>
      let isEmpty := match rest with
        | .blockEntry :: _ => true
        | .blockEnd :: _ => true
        | _ => false
      if isEmpty then
        readItems? fuel (Node.empty :: items) context rest
      else
        match read? fuel .block context rest with
        | none => none
        | some (item, rest, context) => readItems? fuel (item :: items) context rest
    | _ => none

/-- Read the items of a block sequence that is not indented. -/
def readLooseItems? : Nat → List Node → Context → List Token → Read Node
  | 0, _, _, _ => none
  | fuel + 1, items, context, tokens =>
    match tokens with
    | .blockEntry :: rest =>
      let isEmpty := match rest with
        | .blockEntry :: _ => true
        | token :: _ => endsEntry token
        | [] => false
      if isEmpty then
        readLooseItems? fuel (Node.empty :: items) context rest
      else
        match read? fuel .block context rest with
        | none => none
        | some (item, rest, context) => readLooseItems? fuel (item :: items) context rest
    | _ => some (.sequence items.reverse, tokens, context)

/-- Read a key or a value of a block mapping. -/
def readPart? : Nat → Context → List Token → Read Node
  | 0, _, _ => none
  | fuel + 1, context, tokens =>
    match tokens with
    | [] => none
    | token :: _ =>
      if endsEntry token then some (Node.empty, tokens, context)
      else read? fuel .value context tokens

/-- Read the entries of a block mapping. -/
def readEntries? : Nat → List (Node × Node) → Context → List Token → Read Node
  | 0, _, _, _ => none
  | fuel + 1, entries, context, tokens =>
    match tokens with
    | .blockEnd :: rest => some (.mapping entries.reverse, rest, context)
    | .key :: rest =>
      match readPart? fuel context rest with
      | none => none
      | some (key, .value :: rest, context) =>
        match readPart? fuel context rest with
        | none => none
        | some (value, rest, context) => readEntries? fuel ((key, value) :: entries) context rest
      | some (key, rest, context) => readEntries? fuel ((key, Node.empty) :: entries) context rest
    | .value :: rest =>
      match readPart? fuel context rest with
      | none => none
      | some (value, rest, context) =>
        readEntries? fuel ((Node.empty, value) :: entries) context rest
    | _ => none

/-- Read the items of a flow sequence. -/
def readFlowItems? : Nat → List Node → Context → List Token → Read Node
  | 0, _, _, _ => none
  | fuel + 1, items, context, tokens =>
    match tokens with
    | .flowSequenceEnd :: rest => some (.sequence items.reverse, rest, context)
    | .key :: rest =>
      match readFlowPair? fuel context rest with
      | none => none
      | some (entry, rest, context) =>
        readFlowSeparator? fuel (.mapping [entry] :: items) context rest
    | _ =>
      match read? fuel .flow context tokens with
      | none => none
      | some (item, rest, context) => readFlowSeparator? fuel (item :: items) context rest

/-- Read what stands behind an item of a flow sequence, and the further items. -/
def readFlowSeparator? : Nat → List Node → Context → List Token → Read Node
  | 0, _, _, _ => none
  | fuel + 1, items, context, tokens =>
    match tokens with
    | .flowEntry :: rest => readFlowItems? fuel items context rest
    | .flowSequenceEnd :: rest => some (.sequence items.reverse, rest, context)
    | _ => none

/-- Read a key or a value of a flow collection, which may be missing. -/
def readFlowPart? : Nat → Context → List Token → Read Node
  | 0, _, _ => none
  | fuel + 1, context, tokens =>
    match tokens with
    | .value :: _ => some (Node.empty, tokens, context)
    | .flowEntry :: _ => some (Node.empty, tokens, context)
    | .flowSequenceEnd :: _ => some (Node.empty, tokens, context)
    | .flowMappingEnd :: _ => some (Node.empty, tokens, context)
    | _ => read? fuel .flow context tokens

/-- Read an entry of a flow collection behind the token that announces its key. -/
def readFlowPair? : Nat → Context → List Token → Read (Node × Node)
  | 0, _, _ => none
  | fuel + 1, context, tokens =>
    match readFlowPart? fuel context tokens with
    | none => none
    | some (key, .value :: rest, context) =>
      match readFlowPart? fuel context rest with
      | none => none
      | some (value, rest, context) => some ((key, value), rest, context)
    | some (key, rest, context) => some ((key, Node.empty), rest, context)

/-- Read the entries of a flow mapping. -/
def readFlowEntries? : Nat → List (Node × Node) → Context → List Token → Read Node
  | 0, _, _, _ => none
  | fuel + 1, entries, context, tokens =>
    let pair? := match tokens with
      | .flowMappingEnd :: _ => none
      | .key :: rest => some (readFlowPair? fuel context rest)
      | .value :: _ => some (readFlowPair? fuel context tokens)
      | _ =>
        some ((read? fuel .flow context tokens).map fun (key, rest, context) =>
          ((key, Node.empty), rest, context))
    match pair? with
    | none => some (.mapping entries.reverse, tokens.drop 1, context)
    | some none => none
    | some (some (entry, .flowEntry :: rest, context)) =>
      readFlowEntries? fuel (entry :: entries) context rest
    | some (some (entry, .flowMappingEnd :: rest, context)) =>
      some (.mapping (entry :: entries).reverse, rest, context)
    | some (some _) => none

end

/-! ## Documents -/

/-- The tag handles that every document knows. -/
def defaultHandles : List (String × String) :=
  [("!", "!"), ("!!", "tag:yaml.org,2002:")]

/-- Read the directives of a document: the tag handles, whether there is a
version, and the tokens behind them. -/
def directives? : Bool → List (String × String) → List Token →
    Option (List (String × String) × List Token)
  | hasVersion, handles, .versionDirective major minor :: rest =>
    if hasVersion || major != 1 || (minor != 1 && minor != 2) then none
    else directives? true handles rest
  | hasVersion, handles, .tagDirective handle uri :: rest =>
    if handles.any (·.1 == handle) then none
    else directives? hasVersion ((handle, uri) :: handles) rest
  | _, handles, tokens => some (handles, tokens)

/-- Whether a stream of one document ends with the given tokens. -/
def endsStream : List Token → Bool
  | .documentEnd :: rest => endsStream rest
  | [.streamEnd] => true
  | _ => false

/-- Whether a document has no content in front of a token. -/
def endsDocument : Token → Bool
  | .versionDirective _ _ => true
  | .tagDirective _ _ => true
  | .documentStart => true
  | .documentEnd => true
  | .streamEnd => true
  | _ => false

/-- The node of a stream of at most one document; a stream without one has an
empty node. -/
def ofTokens? (tokens : List Token) : Option Node := do
  let fuel := 3 * tokens.length + 3
  match tokens with
  | [.streamEnd] => some Node.empty
  | first :: _ =>
    let isExplicit := first != .documentEnd && endsDocument first
    let (handles, content) ← directives? false [] tokens
    let context : Context := { handles := handles ++ defaultHandles }
    let body ← if isExplicit then
        match content with
        | .documentStart :: body => some body
        | _ => none
      else
        some content
    let (node, rest, _) ←
      if isExplicit && (body.head?.any endsDocument) then some (Node.empty, body, context)
      else read? fuel .block context body
    if endsStream rest then some node else none
  | [] => none

/-- The node of a text. -/
def ofText? (text : String) : Option Node :=
  (Token.ofText? text).bind ofTokens?

end Node

end WikiPress.Yaml
