/-
# Reports

Three reports are written for people and tools: the tokens of a script, one on each line; the
diagnostics of a script, one on each line; and the diagnostics as JSON in an indented layout.
-/

import RecordFlow.Diagnostic
import RecordFlow.Text.Blank

namespace RecordFlow.Report

/-- A text filled up with spaces on the right to at least `width` characters. -/
def padRight (width : Nat) (text : String) : String :=
  text ++ String.ofList (List.replicate (width - text.length) ' ')

/-- The line for a token: its place, its kind and its payload in columns, with no blanks at the
end. -/
def tokenLine (t : Token) : String :=
  let columns :=
    padRight 8 t.position.text ++ " " ++ padRight 12 t.kind.name ++ " " ++ t.valueText
  String.ofList (Text.trimEnd columns.toList)

/-- The lines for a list of tokens. -/
def tokens (ts : List Token) : String := "\n".intercalate (ts.map tokenLine)

/-- The lines for a list of diagnostics. -/
def diagnostics (ds : List Diagnostic) : String :=
  "\n".intercalate (ds.map fun d => "error: " ++ d.text)

/-- A digit of a number below sixteen. -/
def hexDigit (n : Nat) : Char := Nat.digitChar (n % 16)

/-- How a character is written in a JSON string. Only quotes, backslashes and control characters are
escaped. -/
def jsonChar (c : Char) : List Char :=
  match c with
  | '"' => ['\\', '"']
  | '\\' => ['\\', '\\']
  | '\x08' => ['\\', 'b']
  | '\x0c' => ['\\', 'f']
  | '\n' => ['\\', 'n']
  | '\r' => ['\\', 'r']
  | '\t' => ['\\', 't']
  | c =>
      if c.toNat < 0x20 then ['\\', 'u', '0', '0', hexDigit (c.toNat / 16), hexDigit c.toNat]
      else [c]

/-- A JSON string. -/
def jsonString (text : String) : String :=
  "\"" ++ String.ofList (text.toList.flatMap jsonChar) ++ "\""

/-- A diagnostic as a JSON object, two levels deep. -/
def jsonDiagnostic (d : Diagnostic) : String :=
  "  \x7b\n    \"stage\": " ++ jsonString d.stage.name
    ++ ",\n    \"message\": " ++ jsonString d.message
    ++ ",\n    \"line\": " ++ d.position.line.repr
    ++ ",\n    \"column\": " ++ d.position.column.repr
    ++ "\n  \x7d"

/-- A list of diagnostics as a JSON array. -/
def jsonDiagnostics (ds : List Diagnostic) : String :=
  if ds.isEmpty then "[]" else "[\n" ++ ",\n".intercalate (ds.map jsonDiagnostic) ++ "\n]"

/-- The layouts of a report of diagnostics. -/
inductive Format
  | text
  | json
deriving DecidableEq, Repr

/-- A list of diagnostics in a layout. -/
def diagnosticsAs : Format → List Diagnostic → String
  | .text, ds => diagnostics ds
  | .json, ds => jsonDiagnostics ds

end RecordFlow.Report
