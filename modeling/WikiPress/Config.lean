import WikiPress.Files.System
import WikiPress.Include.Expansion
import WikiPress.Yaml.Node

/-!
# Configuration

The settings of a site stand in a YAML document: a mapping from the names of
settings to their values, in which every setting may be left out.  A setting that
is unknown or named twice, or a value of the wrong kind, makes the document
malformed.  What was read is then checked: a page needs at least one round of
includes, and neither the pattern of the pages nor the path of the template may
be blank.
-/

namespace WikiPress

open Files

/-- The settings of a site. -/
structure Config where
  /-- The page template, below the input directory. -/
  template : Path := "_template.html"
  /-- The pattern of the page sources. -/
  pages : String := "*.md"
  /-- The patterns of the files that are copied as they are. -/
  assets : List String := ["**/*.\x7bcss,png,jpg,gif\x7d"]
  /-- The rounds of include expansion that a page may take. -/
  includeLimit : Nat := Include.defaultLimit
deriving DecidableEq, Repr, Inhabited

/-- Why a configuration cannot be used. -/
inductive ConfigError where
  | unreadable (cause : FileError)
  | malformed
  | noRounds
  | noPagePattern
  | noTemplate
deriving DecidableEq, Repr

namespace ConfigError

/-- What is said of a document that is no configuration. -/
def malformedDescription : String :=
  "not a mapping of settings"

def message : ConfigError → String
  | unreadable cause => s!"Failed to read config file: {cause.message}"
  | malformed => s!"Failed to parse YAML: {malformedDescription}"
  | noRounds => "Invalid configuration: include_limit must be at least 1"
  | noPagePattern => "Invalid configuration: pages pattern is empty"
  | noTemplate => "Invalid configuration: template path is empty"

/-- The messages of the failures behind this one. -/
def causes : ConfigError → List String
  | unreadable cause => [cause.message]
  | malformed => [malformedDescription]
  | _ => []

end ConfigError

namespace Config

/-- The name of the configuration file in an input directory. -/
def fileName : String :=
  "wikismith.yml"

/-! ## Values -/

/-- The number that a list of digits stands for in a base, the digits after nine
being letters of either case. -/
def numeral? (base : Nat) : List Char → Option Nat
  | [] => none
  | digits => digits.foldlM (fun value char => do
      let digit ← Text.hexValue? char
      if digit < base then some (base * value + digit) else none) 0

/-- A decimal number has no sign and no needless zero in front. -/
def decimalNumeral? (digits : List Char) : Option Nat :=
  if 1 < digits.length && digits.head? == some '0' then none else numeral? 10 digits

/-- A number is written in base ten, or behind `0x`, `0o` or `0b` in another base;
a plus sign may stand in front. -/
def unsigned? (text : String) : Option Nat :=
  let unsignedPart (chars : List Char) : Option Nat :=
    match chars with
    | '0' :: 'x' :: digits => numeral? 16 digits
    | '0' :: 'o' :: digits => numeral? 8 digits
    | '0' :: 'b' :: digits => numeral? 2 digits
    | digits => decimalNumeral? digits
  match text.toList with
  | '+' :: chars => unsignedPart chars
  | chars => unsignedPart chars

/-- The tag of integers. -/
def integerTag : String :=
  "tag:yaml.org,2002:int"

/-- The numbers that a setting takes lie below this one. -/
def numberBound : Nat :=
  UInt64.size

/-- The number that a node holds: a plain scalar, or a literal one with the tag of
integers. -/
def number? : Yaml.Node → Option Nat
  | .scalar value style tag =>
    if style = .plain || (style = .literal && tag == some integerTag) then
      (unsigned? value).filter (· < numberBound)
    else
      none
  | _ => none

/-- The text that a node holds: any scalar, as it is written. -/
def text? : Yaml.Node → Option String
  | .scalar value _ _ => some value
  | _ => none

/-- The texts that a node holds: a sequence of scalars.  Nothing at all is the
empty sequence. -/
def texts? : Yaml.Node → Option (List String)
  | .sequence items => items.mapM text?
  | .scalar "" .plain _ => some []
  | _ => none

/-! ## Documents -/

/-- The names of settings. -/
inductive Setting where
  | template | pages | assets | includeLimit
deriving DecidableEq, Repr

/-- The setting that a node names. -/
def Setting.ofNode? (node : Yaml.Node) : Option Setting :=
  match text? node with
  | some "template" => some template
  | some "pages" => some pages
  | some "assets" => some assets
  | some "include_limit" => some includeLimit
  | _ => none

/-- Give a setting the value that a node holds. -/
def assign? (config : Config) (setting : Setting) (value : Yaml.Node) : Option Config :=
  match setting with
  | .template => (text? value).map fun template => { config with template }
  | .pages => (text? value).map fun pages => { config with pages }
  | .assets => (texts? value).map fun assets => { config with assets }
  | .includeLimit => (number? value).map fun includeLimit => { config with includeLimit }

/-- Read the entries of a mapping; the settings in `seen` have been read. -/
def ofEntries? (seen : List Setting) (config : Config) :
    List (Yaml.Node × Yaml.Node) → Option Config
  | [] => some config
  | (name, value) :: entries => do
    let setting ← Setting.ofNode? name
    if setting ∈ seen then
      none
    else do
      let config ← config.assign? setting value
      ofEntries? (setting :: seen) config entries

/-- The configuration that a node holds.  Nothing at all is the empty mapping. -/
def ofNode? : Yaml.Node → Option Config
  | .mapping entries => ofEntries? [] {} entries
  | .scalar "" .plain _ => some {}
  | _ => none

/-- Refuse settings with which no site can be made. -/
def check (config : Config) : Except ConfigError Config :=
  if config.includeLimit = 0 then .error .noRounds
  else if (Text.trim config.pages).isEmpty then .error .noPagePattern
  else if (Text.trim config.template).isEmpty then .error .noTemplate
  else .ok config

/-- The configuration that a text holds; a blank text changes nothing. -/
def ofText (text : String) : Except ConfigError Config :=
  if (Text.trim text).isEmpty then
    check {}
  else
    match (Yaml.Node.ofText? text).bind ofNode? with
    | some config => check config
    | none => .error .malformed

variable {m : Type → Type} [Monad m]

/-- The configuration in a file. -/
def ofFile (system : System m) (path : Path) : m (Except ConfigError Config) := do
  match ← system.readText path with
  | .ok text => return ofText text
  | .error error => return .error (.unreadable error)

/-- The configuration of an input directory: that in its configuration file, if
there is one. -/
def discover (system : System m) (directory : Path) : m (Except ConfigError Config) := do
  let path := Path.join directory fileName
  if ← system.isFile path then ofFile system path else return .ok {}

end Config

end WikiPress
