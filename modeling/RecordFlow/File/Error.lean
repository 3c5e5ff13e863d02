/-
# Failures of the file system

The failures that reading and writing can meet here, with the wording and the number that the
operating system gives them.
-/

namespace RecordFlow

/-- Why a file or a directory could not be used. -/
inductive FileError
  /-- There is nothing at the path. -/
  | notFound
  /-- A directory had to be made where something else is. -/
  | alreadyExists
  /-- The path leads through something that is no directory. -/
  | notDirectory
  /-- The path leads to a directory and not to a file. -/
  | isDirectory
  /-- The file is no text. -/
  | invalidText
  /-- Any other failure, in the words it was reported with. -/
  | other (message : String)
deriving DecidableEq, Repr

namespace FileError

/-- The wording of a failure. -/
def message : FileError → String
  | notFound => "No such file or directory (os error 2)"
  | alreadyExists => "File exists (os error 17)"
  | notDirectory => "Not a directory (os error 20)"
  | isDirectory => "Is a directory (os error 21)"
  | invalidText => "stream did not contain valid UTF-8"
  | other message => message

end FileError

end RecordFlow
