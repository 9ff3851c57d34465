import WikiPress.Files.System

/-!
# A file system as a value

A tree of files is a list of places with what lies there.  A place is the list of
names that leads to it from the root; the root itself is always a directory.
`Tree.locate` walks along the parts of a path as the operating system does: a
step needs a directory to start from, `..` goes up, and a name has to be present.

`Tree.system` is the file system that reads and changes such a value.
-/

namespace WikiPress.Files

/-- A place in a tree: the names that lead to it. -/
abbrev Place := List String

/-- What lies at a place. -/
inductive Node where
  | file (content : ByteArray)
  | directory
deriving Inhabited

/-- Files and directories by their places. -/
structure Tree where
  nodes : List (Place × Node) := []
deriving Inhabited

namespace Tree

/-- Bytes in the longest name that a directory takes. -/
def maxNameSize : Nat := 255

/-- Bytes in the shortest path that is refused as too long. -/
def maxPathSize : Nat := 4096

/-- What lies at a place. -/
def node? (tree : Tree) (place : Place) : Option Node :=
  if place = [] then some .directory else tree.nodes.lookup place

/-- A tree without what lies at a place. -/
def erase (tree : Tree) (place : Place) : Tree :=
  ⟨tree.nodes.filter fun (other, _) => other != place⟩

/-- A tree with a node put at a place. -/
def insert (tree : Tree) (place : Place) (node : Node) : Tree :=
  ⟨(tree.erase place).nodes ++ [(place, node)]⟩

/-- A tree without a place and all that lies below it. -/
def eraseBelow (tree : Tree) (place : Place) : Tree :=
  ⟨tree.nodes.filter fun (other, _) => !place.isPrefixOf other⟩

/-- What lies below a place, by the names that lead there from it. -/
def below (tree : Tree) (place : Place) : List (Place × Node) :=
  tree.nodes.filterMap fun (other, node) =>
    if place.isPrefixOf other && other != place then
      some (other.drop place.length, node)
    else
      none

/-- Whether a directory lies at a place. -/
def isDirectory (tree : Tree) (place : Place) : Bool :=
  tree.node? place matches some .directory

/-- Walk along parts from a place. -/
def walk (tree : Tree) : Place → List String → Except FileError Place
  | place, [] => .ok place
  | place, part :: rest =>
    if !tree.isDirectory place then .error .notDirectory
    else if part = "." then walk tree place rest
    else if part = ".." then walk tree place.dropLast rest
    else if part.utf8ByteSize > maxNameSize then .error .nameTooLong
    else if (tree.node? (place ++ [part])).isNone then .error .notFound
    else walk tree (place ++ [part]) rest

/-- The place from which a path starts. -/
def startOf (workingDirectory : Place) (path : Path) : Place :=
  if Path.isAbsolute path then [] else workingDirectory

/-- Refuse what is no path at all. -/
def checkPath (path : Path) : Except FileError Unit :=
  if path.toList.contains '\x00' then .error .zeroInPath
  else if path.isEmpty then .error .notFound
  else if path.utf8ByteSize ≥ maxPathSize then .error .nameTooLong
  else .ok ()

/-- The place that a path leads to.  A slash at the end asks for a directory. -/
def locate (tree : Tree) (workingDirectory : Place) (path : Path) : Except FileError Place := do
  checkPath path
  let place ← tree.walk (startOf workingDirectory path) (Path.rawParts path)
  if Path.endsInSlash path && !tree.isDirectory place then .error .notDirectory
  else .ok place

/-- The directory in which a path would put something, and its name there. -/
def locateNew (tree : Tree) (workingDirectory : Place) (path : Path) :
    Except FileError (Place × String) := do
  checkPath path
  match (Path.rawParts path).reverse with
  | [] => .error .alreadyExists
  | name :: above =>
    let place ← tree.walk (startOf workingDirectory path) above.reverse
    if !tree.isDirectory place then .error .notDirectory
    else if name = "." || name = ".." then .error .alreadyExists
    else if name.utf8ByteSize > maxNameSize then .error .nameTooLong
    else .ok (place, name)

/-- What lies at a path. -/
def kind (tree : Tree) (workingDirectory : Place) (path : Path) : Except FileError Kind := do
  let place ← tree.locate workingDirectory path
  return if tree.isDirectory place then .directory else .file

/-- The bytes of the file at a path. -/
def read (tree : Tree) (workingDirectory : Place) (path : Path) :
    Except FileError ByteArray := do
  match tree.node? (← tree.locate workingDirectory path) with
  | some (.file content) => .ok content
  | some .directory => .error .isDirectory
  | none => .error .notFound

/-- Put a file at a path, in place of one that lies there.  A slash at the end asks
for a directory, which is no file. -/
def write (tree : Tree) (workingDirectory : Place) (path : Path) (content : ByteArray) :
    Except FileError Tree := do
  match tree.locateNew workingDirectory path with
  | .error .alreadyExists => .error .isDirectory
  | .error error => .error error
  | .ok (place, name) =>
    let target := place ++ [name]
    if Path.endsInSlash path || tree.isDirectory target then .error .isDirectory
    else .ok (tree.insert target (.file content))

/-- Make a directory in one that is present. -/
def makeDirectory (tree : Tree) (workingDirectory : Place) (path : Path) :
    Except FileError Tree := do
  let (place, name) ← tree.locateNew workingDirectory path
  if (tree.node? (place ++ [name])).isSome then .error .alreadyExists
  else .ok (tree.insert (place ++ [name]) .directory)

/-- Remove a directory with all that lies below it. -/
def removeDirectory (tree : Tree) (workingDirectory : Place) (path : Path) :
    Except FileError Tree := do
  let place ← tree.locate workingDirectory path
  if !tree.isDirectory place then .error .notDirectory
  else .ok (tree.eraseBelow place)

/-- The path without `.` and `..` of what lies at a path. -/
def canonical (tree : Tree) (workingDirectory : Place) (path : Path) : Except FileError Path :=
  (tree.locate workingDirectory path).map Path.ofParts

/-- The files below a path, as seen from there. -/
def filesBelow (tree : Tree) (workingDirectory : Place) (path : Path) : List Place :=
  match tree.locate workingDirectory path with
  | .error _ => []
  | .ok place =>
    match tree.node? place with
    | some (.file _) => [[]]
    | _ => (tree.below place).filterMap fun (names, node) =>
        match node with
        | .file _ => some names
        | .directory => none

/-- Run a change that may fail; a failure leaves the tree as it was. -/
def change (step : Tree → Except FileError Tree) : StateM Tree (Except FileError Unit) := do
  match step (← get) with
  | .ok tree =>
    set tree
    return .ok ()
  | .error error => return .error error

/-- The file system that a tree is, with relative paths starting at a place. -/
def system (workingDirectory : Place) : System (StateM Tree) where
  kind path := return (← get).kind workingDirectory path
  read path := return (← get).read workingDirectory path
  write path content := change fun tree => tree.write workingDirectory path content
  makeDirectory path := change fun tree => tree.makeDirectory workingDirectory path
  removeDirectory path := change fun tree => tree.removeDirectory workingDirectory path
  canonical path := return (← get).canonical workingDirectory path
  filesBelow path := return (← get).filesBelow workingDirectory path
  workingDirectory := return Path.ofParts workingDirectory

end Tree

end WikiPress.Files
