/-
# Compiling scripts

A script is scanned, read and rendered. A scan stops at its first error. Reading reports all of its
errors, and any of them keeps the script from being rendered. Rendering again stops at its first
error. So a failure is the complaint of one stage only.
-/

import RecordFlow.Diagnostic
import RecordFlow.Render.Basic
import RecordFlow.Script.Parser

namespace RecordFlow

/-- Scan and read a text. -/
def readScript (source : String) : Except (List Diagnostic) Script :=
  match tokenize source with
  | .error e => .error [.lex e]
  | .ok tokens =>
      let parsed := parse tokens
      match parsed.errors with
      | [] => .ok parsed.script
      | errors => .error (errors.map .parse)

/-- Compile a text with the snippets of a library. -/
def compile (library : Library) (source : String) : Except (List Diagnostic) String :=
  match readScript source with
  | .error diagnostics => .error diagnostics
  | .ok script =>
      match render library script with
      | .ok text => .ok text
      | .error e => .error [.render e]

end RecordFlow
