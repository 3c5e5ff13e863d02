/-
# File trees

A file tree is what a program sees of a file system from its working directory: files with their
bytes, and directories. It is a value, so reading and writing are functions of it. A path is walked
component by component. Each step needs a directory to start from, also the step of a single dot; a
slash at the end of a path counts as such a dot.

Two dots lead to the directory above, also out of the working directory. Nothing is known about the
directories above it but that they are there: the way back down into the working directory would
need its name. The same holds for the root of the file system, which has no directory above it.
-/

import RecordFlow.File.Error
import RecordFlow.File.Path

namespace RecordFlow

/-- What a place in a tree can hold. -/
inductive FileEntry
  | file (bytes : List UInt8)
  | directory
deriving DecidableEq, Repr

/-- A directory that is always there. -/
inductive Anchor
  /-- The directory so many levels above the working directory. -/
  | above (levels : Nat)
  /-- The root of the file system. -/
  | root
deriving DecidableEq, Repr

/-- A place: the names on the way to it from a directory that is always there. -/
structure Place where
  anchor : Anchor
  names : List String
deriving DecidableEq, Repr

namespace Place

/-- The working directory. -/
def here : Place := ⟨.above 0, []⟩

/-- The root of the file system. -/
def root : Place := ⟨.root, []⟩

/-- The place of a name in a directory. -/
def child (p : Place) (name : String) : Place := { p with names := p.names ++ [name] }

/-- The directory above. The root is above itself. -/
def up (p : Place) : Place :=
  match p.names, p.anchor with
  | [], .above levels => ⟨.above (levels + 1), []⟩
  | [], .root => p
  | names, anchor => ⟨anchor, names.dropLast⟩

/-- The path from the working directory to a place in it. -/
def path? (p : Place) : Option String :=
  if p.anchor = .above 0 then some ("/".intercalate p.names) else none

end Place

/-- Files and directories by place. The directories that are always there have no entry. -/
structure FileTree where
  entries : List (Place × FileEntry)
deriving DecidableEq

namespace FileTree

/-- The tree without any file. -/
def empty : FileTree := ⟨[]⟩

/-- What is at a place. -/
def entry? (t : FileTree) (place : Place) : Option FileEntry :=
  if place.names.isEmpty then some .directory else List.lookup place t.entries

/-- The tree with a place given an entry, in place of an earlier one. -/
def insert (t : FileTree) (place : Place) (entry : FileEntry) : FileTree :=
  ⟨t.entries.filter (fun e => e.1 != place) ++ [(place, entry)]⟩

/-- The steps of a path. -/
def steps (path : String) : List String := (path.splitOn "/").filter fun step => !step.isEmpty

/-- Whether a path ends in a slash. -/
def endsInSlash (path : String) : Bool := path.toList.getLast? == some '/'

/-- Walk from a place. All places on the way have to be directories; the last one need not exist. -/
def walk (t : FileTree) (start : Place) : List String → Except FileError Place
  | [] => .ok start
  | step :: rest =>
      match t.entry? start with
      | none => .error .notFound
      | some (.file _) => .error .notDirectory
      | some .directory =>
          if step = "." then walk t start rest
          else if step = ".." then walk t start.up rest
          else walk t (start.child step) rest

/-- The place that a path leads to, whatever slashes it ends in. -/
def target (t : FileTree) (path : String) : Except FileError Place :=
  if path.isEmpty then .error .notFound
  else t.walk (if Path.isAbsolute path then .root else .here) (steps path)

/-- What a path leads to. -/
def look (t : FileTree) (path : String) : Except FileError FileEntry := do
  let place ← t.target path
  let place ← if endsInSlash path then t.walk place ["."] else pure place
  match t.entry? place with
  | some entry => return entry
  | none => throw .notFound

/-- The bytes of a file. -/
def read (t : FileTree) (path : String) : Except FileError (List UInt8) := do
  match ← t.look path with
  | .file bytes => return bytes
  | .directory => throw .isDirectory

/-- Whether a path leads to a file. -/
def isFile (t : FileTree) (path : String) : Bool :=
  match t.look path with
  | .ok (.file _) => true
  | _ => false

/-- Whether a path leads to a directory. -/
def isDirectory (t : FileTree) (path : String) : Bool :=
  match t.look path with
  | .ok .directory => true
  | _ => false

/-- Make one directory. -/
def createDir (t : FileTree) (path : String) : Except FileError FileTree := do
  let place ← t.target path
  match t.entry? place with
  | some _ => throw .alreadyExists
  | none => return t.insert place .directory

/-- Write a file, in place of an earlier one. -/
def write (t : FileTree) (path : String) (bytes : List UInt8) : Except FileError FileTree := do
  let place ← t.target path
  if endsInSlash path then throw .isDirectory
  match t.entry? place with
  | some .directory => throw .isDirectory
  | _ => return t.insert place (.file bytes)

/-- The files in the working directory that another tree does not have, or has with other bytes. -/
def changesFrom (t old : FileTree) : List (String × List UInt8) :=
  t.entries.filterMap fun
    | (place, .file bytes) =>
        if old.entry? place = some (.file bytes) then none
        else place.path?.map fun path => (path, bytes)
    | (_, .directory) => none

end FileTree

end RecordFlow
