/-
# Directories of snippets

Templates may be kept in a directory, each in a file that has the name of its snippet and one common
extension. A file that is not there is an unknown snippet; a file that cannot be read is an error of
its own.
-/

import RecordFlow.File.Access
import RecordFlow.Snippet.Library

namespace RecordFlow

/-- A directory of templates. -/
structure SnippetDirectory where
  path : String
  extension : String := "ts"

namespace SnippetDirectory

variable {m : Type → Type} [Monad m] [MonadFiles m]

/-- The file of a snippet. -/
def pathFor (d : SnippetDirectory) (name : String) : String :=
  Path.join d.path (name ++ "." ++ d.extension)

/-- What the outcome of reading its file means for a snippet. -/
def interpret (d : SnippetDirectory) (name : String) :
    Except FileError String → Except SnippetError String
  | .ok text => .ok text
  | .error .notFound => .error (.unknown name)
  | .error cause => .error (.unreadable (d.pathFor name) cause)

/-- The template of a snippet. -/
def template (d : SnippetDirectory) (name : String) : m (Except SnippetError String) := do
  let text ← readText (d.pathFor name)
  return d.interpret name text

/-- The snippets that rendering needs and that have no file. -/
def missing (d : SnippetDirectory) : m (List String) :=
  (Role.all.map Role.name).filterM fun name => do
    let found ← MonadFiles.isFile (d.pathFor name)
    return !found

/-- The directory as a library. The templates of all roles are read once, since rendering asks for
no others. -/
def library (d : SnippetDirectory) : m Library := do
  let templates ← Role.all.mapM fun role => do
    let template ← d.template role.name
    return (role.name, template)
  return fun name => (List.lookup name templates).getD (.error (.unknown name))

end SnippetDirectory

end RecordFlow
