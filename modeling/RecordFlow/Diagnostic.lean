/-
# Diagnostics

Compiling goes through three stages, and each of them complains in its own way. A diagnostic is one
complaint of one stage. Its wording leaves the place out, because the place is told separately.
-/

import RecordFlow.Render.Error
import RecordFlow.Script.Error
import RecordFlow.Token.Scanner

namespace RecordFlow

/-- The stages of compiling. -/
inductive Stage
  | lex
  | parse
  | render
deriving DecidableEq, Repr

/-- The name of a stage in reports. -/
def Stage.name : Stage → String
  | lex => "lex"
  | parse => "parse"
  | render => "codegen"

/-- A complaint about a script. -/
inductive Diagnostic
  | lex (error : LexError)
  | parse (error : ParseError)
  | render (error : RenderError)
deriving DecidableEq

namespace Diagnostic

/-- The stage that complains. -/
def stage : Diagnostic → Stage
  | lex _ => .lex
  | parse _ => .parse
  | render _ => .render

/-- The wording of the complaint without its place. -/
def message : Diagnostic → String
  | lex e => e.fault.message
  | parse e => e.summary
  | render e => e.fault.message

/-- The place of the complaint. -/
def position : Diagnostic → Position
  | lex e => e.position
  | parse e => e.position
  | render e => e.position

/-- The complaint on one line, place first. -/
def text (d : Diagnostic) : String := d.position.text ++ ": " ++ d.message

end Diagnostic

end RecordFlow
