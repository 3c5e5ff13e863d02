/-
# Paths

A path is a text of components between slashes. Empty components count for nothing, and neither does
a single dot, except as the first component. The file name of a path is its last component when that
is a name, that is, neither `.` at the beginning nor `..`. A name splits at its last dot into a stem
and an extension, unless that dot is its first character.
-/

namespace RecordFlow.Path

/-- A path written backwards, without the slashes and single dots that it ends in and that count for
nothing. -/
def stripBack : List Char → List Char
  | '/' :: rest => stripBack rest
  | '.' :: '/' :: rest => stripBack ('/' :: rest)
  | rest => rest

/-- What stands before the last component of a path, and that component. -/
def splitLast (path : List Char) : List Char × List Char :=
  let back := stripBack path.reverse
  ((back.dropWhile (· != '/')).reverse, (back.takeWhile (· != '/')).reverse)

/-- Whether a path is one component and nothing else that counts. -/
def isOnly (component path : String) : Bool := splitLast path.toList == ([], component.toList)

/-- Whether a component is a name. -/
def isName (component : List Char) : Bool :=
  component != [] && component != ['.'] && component != ['.', '.']

/-- Split a name at its last dot, if it has a stem before that dot. -/
def splitName (name : List Char) : List Char × Option (List Char) :=
  let back := name.reverse
  match back.dropWhile (· != '.') with
  | _ :: stem =>
      if stem.isEmpty then (name, none)
      else (stem.reverse, some (back.takeWhile (· != '.')).reverse)
  | [] => (name, none)

/-- The file name of a path. -/
def fileName? (path : String) : Option String :=
  let name := (splitLast path.toList).2
  if isName name then some (String.ofList name) else none

/-- The file name of a path without its extension. -/
def stem? (path : String) : Option String :=
  (fileName? path).map fun name => String.ofList (splitName name.toList).1

/-- The extension of a path's file name. -/
def extension? (path : String) : Option String :=
  (fileName? path).bind fun name => (splitName name.toList).2.map String.ofList

/-- Whether a path begins at the root. -/
def isAbsolute (path : String) : Bool := path.toList.head? == some '/'

/-- The path `other` as seen from the directory `base`. A path from the root stands for itself. -/
def join (base other : String) : String :=
  if isAbsolute other then other
  else if base.isEmpty || base.toList.getLast? == some '/' then base ++ other
  else base ++ "/" ++ other

/-- The path up to the end of its stem, if it has a file name. -/
def upToStem? (path : String) : Option String :=
  let (before, name) := splitLast path.toList
  if isName name then some (String.ofList (before ++ (splitName name).1)) else none

/-- The path with a new extension behind its stem. An empty extension leaves the stem alone, and a
path without a file name stays as it is. -/
def setExtension (path extension : String) : String :=
  match upToStem? path with
  | some kept => if extension.isEmpty then kept else kept ++ "." ++ extension
  | none => path

/-- The path with its last characters cut off, as many as its extension has. For a path that ends in
its file name this leaves the dot. -/
def cutExtension (path : String) : String :=
  match extension? path with
  | some extension => String.ofList (path.toList.take (path.length - extension.length))
  | none => path

/-- The path with its extension replaced. The old extension goes first, and only then is the stem
looked for: what is a name no more, such as a name of two dots, gets no extension. -/
def withExtension (path extension : String) : String := setExtension (cutExtension path) extension

/-- The directory that a path is in: the path without its last component. There is none for the root
and for the empty path. -/
def parent? (path : String) : Option String :=
  let back := stripBack path.toList.reverse
  if back.isEmpty then none
  else
    let before := back.dropWhile (· != '/')
    let kept := (stripBack before).reverse
    if kept.isEmpty && !before.isEmpty then some "/" else some (String.ofList kept)

end RecordFlow.Path
