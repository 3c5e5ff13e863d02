/-
# Reading statements

    Statement = ( Name '=' Source
                | OUTPUT Source TO String
                | PARAM '@' Name ':' Name ['=' Value]
                | '@' Name [':' Name] '=' Value
                | IMPORT Name FROM String
                | EXPORT Name ) ';'
    Value     = String | Number | Boolean | Expression | '@' Name

The first token decides which statement is read, and it is read by whoever decides. The productions
here read what follows it, the semicolon included.
-/

import RecordFlow.Script.Production.Source

namespace RecordFlow

open Production

namespace Value

/-- Read the name of a variable, after its `@`. -/
def afterAt (token : Token) : Production Value := do
  let name ← Name.production .variableName
  return .reference token name

/-- How a value goes on after its first token. -/
def after? (t : Token) : Option (Production Value) :=
  match t.kind with
  | .string => some (pure (.text (.ofToken t)))
  | .integer | .decimal => some (pure (.number (.ofToken t)))
  | .boolean => some (pure (.truth (.ofToken t)))
  | .expression => some (pure (.expression (.ofToken t)))
  | .punctuation .atSign => some (afterAt t)
  | _ => none

/-- Read a value of a variable. -/
def production : Production Value := choose .value after?

end Value

namespace Statement

/-- Read an assignment, after its name. -/
def afterName (name : Name) : Production Statement := do
  let _ ← mark .equal .equals
  let source ← Source.production
  return .assign name source

/-- Read an output, after its first word. -/
def afterOutput (token : Token) : Production Statement := do
  let source ← Source.production
  let _ ← word .TO .outputTo
  let path ← TextLiteral.production .outputPath
  return .output token source path

/-- Read a default value, if there is one. -/
def default? : Production (Option Value) := do
  match ← accept? (.punctuation .equal) with
  | some _ =>
      let value ← Value.production
      return some value
  | none => return none

/-- Read a parameter, after its first word. -/
def afterParam (token : Token) : Production Statement := do
  let sign ← mark .atSign .atSign
  let name ← Name.production .paramName
  let _ ← mark .colon .colon
  let typeName ← Name.production .typeName
  let value? ← default?
  return .param token ⟨sign, name, typeName⟩ value?

/-- Read a definition of a variable, after its colon. -/
def afterColon (token : Token) (name : Name) : Production Statement := do
  let typeName ← Name.production .typeName
  let _ ← mark .equal .equals
  let value ← Value.production
  return .defineVariable ⟨token, name, typeName⟩ value

/-- Read a new value of a variable, after the variable. -/
def afterVariable (token : Token) (name : Name) : Production Statement := do
  let _ ← mark .equal .colonOrEquals
  let value ← Value.production
  return .setVariable token name value

/-- Read a definition of a variable or a new value for one, after the `@`. -/
def afterAt (token : Token) : Production Statement := do
  let name ← Name.production .variableName
  match ← accept? (.punctuation .colon) with
  | some _ => afterColon token name
  | none => afterVariable token name

/-- Read an import, after its first word. -/
def afterImport (token : Token) : Production Statement := do
  let name ← Name.production .importedName
  let _ ← word .FROM .sourceFrom
  let path ← TextLiteral.production .modulePath
  return .importName token name path

/-- Read an export, after its first word. -/
def afterExport (token : Token) : Production Statement := do
  let name ← Name.production .exportedName
  return .exportName token name

/-- How a statement goes on after its first token, up to its semicolon. -/
def body? (t : Token) : Option (Production Statement) :=
  match t.kind with
  | .identifier => some (afterName (.ofToken t))
  | .keyword .OUTPUT => some (afterOutput t)
  | .punctuation .atSign => some (afterAt t)
  | .keyword .PARAM => some (afterParam t)
  | .keyword .IMPORT => some (afterImport t)
  | .keyword .EXPORT => some (afterExport t)
  | _ => none

/-- Close a statement with its semicolon. -/
def closed (body : Production Statement) : Production Statement := do
  let statement ← body
  let _ ← mark .semicolon .semicolon
  return statement

end Statement

/-! ## Productions go forward -/

namespace Production

theorem forward_value : Forward Value.production := by
  apply forward_choose
  intro t p h
  unfold Value.after? at h
  split at h <;> cases h
  case h_6 => exact forward_bind (forward_name _) fun _ => forward_pure _
  all_goals exact forward_pure _

theorem forward_afterAssigned (name : Name) : Forward (Statement.afterName name) :=
  forward_bind (forward_take _ _) fun _ => forward_bind forward_source fun _ => forward_pure _

theorem forward_afterOutput (token : Token) : Forward (Statement.afterOutput token) :=
  forward_bind forward_source fun _ => forward_bind (forward_take _ _) fun _ =>
    forward_bind (forward_text _) fun _ => forward_pure _

theorem forward_default? : Forward Statement.default? := by
  apply forward_bind (forward_accept? _)
  intro found
  cases found with
  | none => exact forward_pure _
  | some _ => exact forward_bind forward_value fun _ => forward_pure _

theorem forward_afterParam (token : Token) : Forward (Statement.afterParam token) :=
  forward_bind (forward_take _ _) fun _ => forward_bind (forward_name _) fun _ =>
    forward_bind (forward_take _ _) fun _ => forward_bind (forward_name _) fun _ =>
      forward_bind forward_default? fun _ => forward_pure _

theorem forward_afterAt (token : Token) : Forward (Statement.afterAt token) := by
  apply forward_bind (forward_name _)
  intro name
  apply forward_bind (forward_accept? _)
  intro found
  cases found with
  | none => exact forward_bind (forward_take _ _) fun _ => forward_bind forward_value fun _ =>
      forward_pure _
  | some _ => exact forward_bind (forward_name _) fun _ => forward_bind (forward_take _ _) fun _ =>
      forward_bind forward_value fun _ => forward_pure _

theorem forward_afterImport (token : Token) : Forward (Statement.afterImport token) :=
  forward_bind (forward_name _) fun _ => forward_bind (forward_take _ _) fun _ =>
    forward_bind (forward_text _) fun _ => forward_pure _

theorem forward_afterExport (token : Token) : Forward (Statement.afterExport token) :=
  forward_bind (forward_name _) fun _ => forward_pure _

theorem forward_body {t : Token} {p : Production Statement} (h : Statement.body? t = some p) :
    Forward p := by
  unfold Statement.body? at h
  split at h <;> cases h
  · exact forward_afterAssigned _
  · exact forward_afterOutput t
  · exact forward_afterAt t
  · exact forward_afterParam t
  · exact forward_afterImport t
  · exact forward_afterExport t

theorem forward_closed {p : Production Statement} (h : Forward p) :
    Forward (Statement.closed p) :=
  forward_bind h fun _ => forward_bind (forward_take _ _) fun _ => forward_pure _

end Production

end RecordFlow
