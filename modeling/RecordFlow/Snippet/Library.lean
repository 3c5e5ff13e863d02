/-
# Libraries of snippets

A library answers a name with a template or says why it has none. It is a function, so every way to
keep templates is one: a set in memory, a directory, a set that was read before. Filling a snippet
refuses a value whose key the template does not have. A placeholder without a value stays in the
text.
-/

import RecordFlow.File.Error
import RecordFlow.Snippet.Role
import RecordFlow.Snippet.Template

namespace RecordFlow

/-- Why a snippet could not be filled. -/
inductive SnippetError
  /-- A value was given for a key that the template does not have. -/
  | missingPlaceholder (snippet key : String)
  /-- There is no snippet of this name. -/
  | unknown (name : String)
  /-- The file of the snippet could not be read. -/
  | unreadable (path : String) (cause : FileError)
deriving DecidableEq

namespace SnippetError

/-- The wording of an error. -/
def message : SnippetError → String
  | missingPlaceholder snippet key =>
      "snippet '" ++ snippet ++ "' has no placeholder '" ++ key ++ "'"
  | unknown name => "unknown snippet '" ++ name ++ "'"
  | unreadable path cause => "failed to read snippet " ++ path ++ ": " ++ cause.message

end SnippetError

/-- Fill a template. The first value whose key the template does not have is an error. -/
def substitute (snippet template : String) (values : List (String × String)) :
    Except SnippetError String :=
  match values.find? fun value => !(Template.keys template).contains value.1 with
  | some value => .error (.missingPlaceholder snippet value.1)
  | none => .ok (Template.fill template values)

/-- A source of templates. -/
abbrev Library := String → Except SnippetError String

namespace Library

/-- Fill the snippet of the given name. -/
def get (library : Library) (name : String) (values : List (String × String)) :
    Except SnippetError String := do
  let template ← library name
  substitute name template values

end Library

/-- Templates by name. Of two templates of one name the one in front counts. -/
structure SnippetSet where
  entries : List (String × String)

namespace SnippetSet

/-- The set without any snippet. -/
def empty : SnippetSet := ⟨[]⟩

/-- The set that comes with the program. -/
def builtin : SnippetSet := ⟨Role.all.map fun role => (role.name, role.template)⟩

/-- Add a snippet, in place of an earlier one of the same name. -/
def insert (set : SnippetSet) (name template : String) : SnippetSet :=
  ⟨(name, template) :: set.entries⟩

/-- The set without the snippets of these names. -/
def without (set : SnippetSet) (names : List String) : SnippetSet :=
  ⟨set.entries.filter fun entry => !names.contains entry.1⟩

/-- The set as a library. -/
def library (set : SnippetSet) : Library := fun name =>
  match List.lookup name set.entries with
  | some template => .ok template
  | none => .error (.unknown name)

end SnippetSet

/-- The library that comes with the program. -/
def Library.builtin : Library := SnippetSet.builtin.library

end RecordFlow
