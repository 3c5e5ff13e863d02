/-
# What is wrong with a list of tokens

Reading a script fails in three ways: a token that begins no statement, a directive, and a token in
the place of something else. An error keeps the token it blames and the cause; its wording and its
place are functions of the two.
-/

import RecordFlow.Token.Basic

namespace RecordFlow

/-- What a production was waiting for. -/
inductive Expected
  | equals
  | source
  | outputTo
  | outputPath
  | atSign
  | paramName
  | colon
  | typeName
  | variableName
  | colonOrEquals
  | importedName
  | sourceFrom
  | modulePath
  | exportedName
  | value
  | semicolon
  | rightParen
  | filePath
  | filterCondition
  | joinWord
  | joinOn
  | joinCondition
  | sourceAlias
  | field
  | fieldNameAfterDot
  | fieldAlias
deriving DecidableEq, Repr

namespace Expected

/-- How error messages speak of what was expected. -/
def text : Expected → String
  | equals => "'='"
  | source => "a source (EXTRACT, SELECT or a name)"
  | outputTo => "TO"
  | outputPath => "an output file name"
  | atSign => "'@'"
  | paramName => "a parameter name"
  | colon => "':'"
  | typeName => "a type name"
  | variableName => "a variable name"
  | colonOrEquals => "':' or '='"
  | importedName => "an imported name"
  | sourceFrom => "FROM"
  | modulePath => "a module path"
  | exportedName => "an exported name"
  | value => "a literal, '@variable' or expression"
  | semicolon => "';'"
  | rightParen => "')'"
  | filePath => "a file name"
  | filterCondition => "a condition expression"
  | joinWord => "JOIN"
  | joinOn => "ON"
  | joinCondition => "a join condition"
  | sourceAlias => "a source alias"
  | field => "'*' or a field"
  | fieldNameAfterDot => "a field name after '.'"
  | fieldAlias => "a field alias"

end Expected

/-- Why reading failed. -/
inductive ParseFault
  /-- No statement begins with the token. -/
  | unexpected
  /-- Something else had to stand in the token's place. -/
  | expected (what : Expected)
  /-- The token is a directive. -/
  | unsupportedDirective
deriving DecidableEq

/-- A failure with the token it blames. -/
structure ParseError where
  fault : ParseFault
  found : Token
deriving DecidableEq

namespace ParseError

/-- The wording of an error without its place. At the end of the text the blamed token is never
described by its payload. -/
def summary (e : ParseError) : String :=
  match e.fault with
  | .unexpected => "Unexpected " ++ e.found.description ++ ", expected a statement"
  | .expected what =>
      if e.found.kind = .endOfFile then "Unexpected end of file, expected " ++ what.text
      else "Unexpected " ++ e.found.description ++ ", expected " ++ what.text
  | .unsupportedDirective => "Directive " ++ e.found.kind.description ++ " is not supported"

/-- The place of the blamed token. -/
def position (e : ParseError) : Position := e.found.position

/-- The wording of an error with its place. -/
def message (e : ParseError) : String := e.summary ++ " at " ++ e.position.phrase

end ParseError

end RecordFlow
