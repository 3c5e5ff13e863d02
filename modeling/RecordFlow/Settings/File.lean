/-
# Settings files

Settings are read from the file that was asked for. If none was, they are read from the file with
the usual name in the working directory, and without that file they are the default ones.
-/

import RecordFlow.Settings
import RecordFlow.Snippet.Directory

namespace RecordFlow.Settings

variable {m : Type → Type} [Monad m] [MonadFiles m]

/-- The usual name of a settings file. -/
def usualFile : String := "sift.toml"

/-- Read a settings file. -/
def load (path : String) : m (Except SettingsError Settings) := do
  match ← readText path with
  | .ok text => return ofText text
  | .error cause => return .error (.unreadable path cause)

/-- Read the settings file that was asked for, or the usual one if there is one. -/
def discover (path? : Option String) : m (Except SettingsError Settings) := do
  match path? with
  | some path => load path
  | none => if ← MonadFiles.isFile usualFile then load usualFile else return .ok {}

/-- The library that the settings name. -/
def library (s : Settings) : m Library :=
  match s.snippetsDir? with
  | some dir => SnippetDirectory.library ⟨dir, s.extension⟩
  | none => return .builtin

end RecordFlow.Settings
