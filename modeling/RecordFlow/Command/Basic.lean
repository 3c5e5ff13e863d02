/-
# Commands

The commands that the program knows, with all that their words on the command line say. A script
that is not named, or whose path is a single hyphen, comes from the standard input.
-/

import RecordFlow.File.Path
import RecordFlow.Report

namespace RecordFlow

/-- What to compile and where to put the result. -/
structure CompileCommand where
  script? : Option String := none
  output? : Option String := none
  snippets? : Option String := none
  format : Report.Format := .text
deriving DecidableEq, Repr

/-- A command. -/
inductive Command
  | compile (options : CompileCommand)
  | check (script? : Option String) (format : Report.Format)
  | tokens (script? : Option String)
  | repl
  | docs
  | doc (category : String)
deriving DecidableEq, Repr

namespace Command

/-- The layout of the diagnostics that a command reports. -/
def format : Command → Report.Format
  | compile options => options.format
  | check _ format => format
  | _ => .text

/-- The path of a script that was named, unless it stands for the standard input. -/
def scriptPath? (script? : Option String) : Option String :=
  script?.filter fun path => !Path.isOnly "-" path

/-- Whether a command takes its script from the standard input. -/
def readsInput : Command → Bool
  | compile options => (scriptPath? options.script?).isNone
  | check script? _ => (scriptPath? script?).isNone
  | tokens script? => (scriptPath? script?).isNone
  | _ => false

end Command

/-- A command and the settings file to use with it, if one was named. -/
structure Invocation where
  settings? : Option String
  command : Command
deriving DecidableEq, Repr

end RecordFlow
