/-!
# Failures of file operations

The ways in which reading or changing files can fail, and their messages.  The
numbers are those of the operating system.
-/

namespace WikiPress.Files

/-- Why an operation on files failed. -/
inductive FileError where
  | notFound
  | permissionDenied
  | alreadyExists
  | notDirectory
  | isDirectory
  | nameTooLong
  | notEmpty
  /-- The bytes of the file are not a text. -/
  | notText
  /-- The path holds the character with number zero. -/
  | zeroInPath
  | emptyPath
  /-- Any other failure, with the system's words for it. -/
  | other (description : String)
deriving DecidableEq, Repr

namespace FileError

def message : FileError → String
  | notFound => "No such file or directory (os error 2)"
  | permissionDenied => "Permission denied (os error 13)"
  | alreadyExists => "File exists (os error 17)"
  | notDirectory => "Not a directory (os error 20)"
  | isDirectory => "Is a directory (os error 21)"
  | nameTooLong => "File name too long (os error 36)"
  | notEmpty => "Directory not empty (os error 39)"
  | notText => "stream did not contain valid UTF-8"
  | zeroInPath => "file name contained an unexpected NUL byte"
  | emptyPath => "cannot make an empty path absolute"
  | other description => description

end FileError

end WikiPress.Files
