/-
# Settings

A settings file says where templates are, what extension they and the results have, and where
results are written. It is a TOML document with the tables `snippets` and `output`. Keys that mean
nothing here are passed over. A table may also be given as an array of its values in the order of
its keys.
-/

import RecordFlow.File.Error
import RecordFlow.File.Path
import RecordFlow.Toml.Document

namespace RecordFlow

/-- What a settings file can say. -/
structure Settings where
  /-- The directory of templates. Without one the templates are those that come with the program. -/
  snippetsDir? : Option String := none
  /-- The extension of templates and of results. -/
  extension : String := "ts"
  /-- The directory of results. Without one a result is printed. -/
  outputDir? : Option String := none
deriving DecidableEq, Repr

/-- Why there are no settings. -/
inductive SettingsError
  /-- The file could not be read. -/
  | unreadable (path : String) (cause : FileError)
  /-- The text is no TOML document, or a value has the wrong type. -/
  | malformed
deriving DecidableEq, Repr

namespace SettingsError

/-- The wording of an error. -/
def message : SettingsError → String
  | unreadable path cause => "failed to read " ++ path ++ ": " ++ cause.message
  | malformed => "invalid configuration: the settings cannot be understood"

end SettingsError

/-- An extension that would put its file into another directory. -/
structure ExtensionError where
  extension : String
deriving DecidableEq, Repr

namespace ExtensionError

/-- The wording of an error. -/
def message (e : ExtensionError) : String :=
  "extension cannot contain path separators: \"" ++ e.extension ++ "\""

end ExtensionError

namespace Settings

open Toml

/-- The value of a record under a key, or at the place of that key if the record is given as an
array. The outer option is none for what cannot be a record. A date is a record without keys. -/
def member? (key : String) (place : Nat) : Toml.Value → Option (Option Toml.Value)
  | .table _ entries => some (List.lookup key entries)
  | .array items => some items[place]?
  | .tables items => some items[place]?
  | .dateTime => some none
  | .text _ => none
  | .scalar => none

/-- The text of a record under a key, if there is one. Any other value is refused. -/
def textMember? (key : String) (place : Nat) (record : Toml.Value) : Option (Option String) := do
  match ← member? key place record with
  | none => return none
  | some (.text text) => return some text
  | some _ => failure

/-- The record under a key of the document. One that is not there has no keys. -/
def record? (key : String) (document : Toml.Value) : Toml.Value :=
  (document.get? key).getD (.table .header [])

/-- Read settings from a document. -/
def ofDocument? (document : Toml.Value) : Option Settings := do
  let snippets := record? "snippets" document
  let output := record? "output" document
  let snippetsDir? ← textMember? "dir" 0 snippets
  let extension? ← textMember? "extension" 1 snippets
  let outputDir? ← textMember? "dir" 0 output
  return ⟨snippetsDir?, extension?.getD "ts", outputDir?⟩

/-- Read settings from the text of a file. -/
def ofText (text : String) : Except SettingsError Settings :=
  match (Toml.parse? text).bind ofDocument? with
  | some settings => .ok settings
  | none => .error .malformed

/-- The settings with another directory of templates. -/
def withSnippetsDir (s : Settings) (dir : String) : Settings := { s with snippetsDir? := some dir }

/-- Where the result for a script is written, if anywhere: in the directory of results, under the
script's stem and the extension for results. -/
def outputPath (s : Settings) (script : String) : Except ExtensionError (Option String) :=
  match s.outputDir?, Path.stem? script with
  | some dir, some stem =>
      if s.extension.contains '/' then .error ⟨s.extension⟩
      else .ok (some (Path.withExtension (Path.join dir stem) s.extension))
  | _, _ => .ok none

end Settings

end RecordFlow
