/-
# Access to files

What the program asks of a file system, as a capability of the monad it runs in. The same program
then runs on the files of the machine and on a file tree, and what is proved about the second is
about the program itself.
-/

import RecordFlow.File.Tree
import RecordFlow.Text.Lines

namespace RecordFlow

/-- A monad with files. Failures are values, so that a program says itself what they mean. -/
class MonadFiles (m : Type → Type) where
  /-- The bytes of a file. -/
  readBytes : String → m (Except FileError (List UInt8))
  /-- Whether a path leads to a file. -/
  isFile : String → m Bool
  /-- Whether a path leads to a directory. -/
  isDirectory : String → m Bool
  /-- Make one directory. -/
  createDir : String → m (Except FileError Unit)
  /-- Write a file, in place of an earlier one. -/
  writeBytes : String → List UInt8 → m (Except FileError Unit)

namespace FileTree

/-- Take the tree that an operation leaves. One that fails leaves the tree as it was. -/
def commit (operation : FileTree → Except FileError FileTree) :
    StateM FileTree (Except FileError Unit) := fun t =>
  match operation t with
  | .ok t => (.ok (), t)
  | .error e => (.error e, t)

end FileTree

/-- A tree that changes gives files to a program. -/
instance : MonadFiles (StateM FileTree) where
  readBytes path := fun t => (t.read path, t)
  isFile path := fun t => (t.isFile path, t)
  isDirectory path := fun t => (t.isDirectory path, t)
  createDir path := FileTree.commit (·.createDir path)
  writeBytes path bytes := FileTree.commit (·.write path bytes)

variable {m : Type → Type} [Monad m] [MonadFiles m]

/-- The text that bytes encode. -/
def decodeText (bytes : List UInt8) : Except FileError String :=
  match Text.decode? bytes with
  | some text => .ok text
  | none => .error .invalidText

/-- The text of a file. -/
def readText (path : String) : m (Except FileError String) := do
  let bytes ← MonadFiles.readBytes path
  return bytes.bind decodeText

/-- Make a directory, and take it well if it is there already. -/
def ensureDir (path : String) : m (Except FileError Unit) := do
  match ← MonadFiles.createDir path with
  | .ok () => return .ok ()
  | .error e => if ← MonadFiles.isDirectory path then return .ok () else return .error e

/-- Make a directory and what is missing of the directories it is in, at most `depth` of them. Only
where nothing is found does this go on to the directory above. -/
def createDirsWithin : (depth : Nat) → String → m (Except FileError Unit)
  | 0, path => if path.isEmpty then return .ok () else ensureDir path
  | depth + 1, path =>
      if path.isEmpty then return .ok ()
      else do
        match ← ensureDir path with
        | .error .notFound =>
            match Path.parent? path with
            | some parent =>
                match ← createDirsWithin depth parent with
                | .ok () => ensureDir path
                | .error e => return .error e
            | none => return .error .notFound
        | outcome => return outcome

/-- Make a directory and what is missing of the directories it is in. Each step upwards shortens the
path, so its length bounds them. -/
def createDirs (path : String) : m (Except FileError Unit) := createDirsWithin path.length path

/-- Write a file. The directories that its path names are made first. -/
def writeFile (path : String) (bytes : List UInt8) : m (Except FileError Unit) := do
  match ← createDirs ((Path.parent? path).getD "") with
  | .error e => return .error e
  | .ok () => MonadFiles.writeBytes path bytes

/-- Write a text to a file. The directories that its path names are made first. -/
def writeText (path text : String) : m (Except FileError Unit) := writeFile path (Text.encode text)

end RecordFlow
