/-!
# Paths

A path is written as parts between slashes.  `rawParts` are the parts that the
file system walks along: it skips empty ones.  `parts` also leaves out `.`, which
names no step, so two paths with equal `parts` and the same start denote the same
place; `..` stays, because only the file system knows where it leads.
-/

namespace WikiPress.Files

/-- A path as it was written. -/
abbrev Path := String

namespace Path

/-- The parts between slashes that are not empty. -/
def rawParts (path : Path) : List String :=
  ((path.toList.splitOn '/').filter (· ≠ [])).map String.ofList

/-- The parts between slashes that name something. -/
def parts (path : Path) : List String :=
  (rawParts path).filter (· ≠ ".")

/-- Whether a path starts at the root of the file system. -/
def isAbsolute (path : Path) : Bool :=
  path.toList.head? == some '/'

/-- Whether a path ends in a slash, which only a directory may. -/
def endsInSlash (path : Path) : Bool :=
  path.toList.getLast? == some '/'

/-- The absolute path with the given parts. -/
def ofParts (parts : List String) : Path :=
  "/" ++ "/".intercalate parts

/-- A path as seen from a directory; an absolute path replaces it. -/
def join (directory path : Path) : Path :=
  if isAbsolute path then path
  else if directory.isEmpty || endsInSlash directory then directory ++ path
  else directory ++ "/" ++ path

/-- The name that a path ends in, unless it ends in `..`. -/
def fileName? (path : Path) : Option String :=
  match (parts path).getLast? with
  | some ".." => none
  | last => last

/-- The directory that a path lies in; the root lies in none. -/
def parent? (path : Path) : Option Path :=
  match parts path with
  | [] => none
  | named =>
    some (if isAbsolute path then ofParts named.dropLast else "/".intercalate named.dropLast)

/-- A file name without its extension, which starts at the last dot.  A dot at
the very start begins no extension. -/
def dropExtension (name : String) : String :=
  match name.toList.reverse.dropWhile (· ≠ '.') with
  | _ :: char :: stem => String.ofList (char :: stem).reverse
  | _ => name

/-- The name that a path ends in, without its extension. -/
def fileStem? (path : Path) : Option String :=
  (fileName? path).map dropExtension

/-- Whether a path lies in a directory or is that directory, as written. -/
def startsWith (path directory : Path) : Bool :=
  isAbsolute path == isAbsolute directory && (parts directory).isPrefixOf (parts path)

/-- A path as seen from a directory that it lies in, as written. -/
def relativeTo? (path directory : Path) : Option Path :=
  if startsWith path directory then
    some ("/".intercalate ((parts path).drop (parts directory).length))
  else
    none

/-- A path made absolute: seen from the working directory, without empty parts
and without `.`.  Nothing is looked up, so `..` stays. -/
def absolute? (workingDirectory path : Path) : Option Path :=
  if path.isEmpty then none
  else
    let start := if isAbsolute path then [] else parts workingDirectory
    let normal := ofParts (start ++ parts path)
    some (if endsInSlash path && !endsInSlash normal then normal ++ "/" else normal)

end Path

end WikiPress.Files
