/-
# Scripts

A script is a list of statements over sources of records. Every node keeps the token it was read
from, which is where a complaint about it points. What a token already determines is not stored
twice: an assignment stands at the token of its name, a field list at the token of its first field.
A field carries at most one alias and a field list is never empty, by construction.
-/

import RecordFlow.Token.Basic

namespace RecordFlow

/-- A name of a source, a field, a variable or a type. -/
structure Name where
  token : Token
  text : String
deriving DecidableEq

/-- A text in quotes, without them. -/
structure TextLiteral where
  token : Token
  value : String
deriving DecidableEq

/-- A number. -/
structure NumberLiteral where
  token : Token
  value : Decimal
deriving DecidableEq

/-- A truth value. -/
structure TruthLiteral where
  token : Token
  value : Bool
deriving DecidableEq

/-- Code of the target language, which nothing here looks into. -/
structure Expression where
  token : Token
  code : String
deriving DecidableEq

/-- What a field takes its value from. -/
inductive FieldValue
  /-- A field of the input, possibly of one of its namespaces. -/
  | input (space? : Option Name) (name : Name)
  | text (literal : TextLiteral)
  | number (literal : NumberLiteral)
  | truth (literal : TruthLiteral)
  | expression (expression : Expression)
deriving DecidableEq

namespace FieldValue

/-- The first token of a field. -/
def token : FieldValue → Token
  | input (some space) _ => space.token
  | input none name => name.token
  | text literal => literal.token
  | number literal => literal.token
  | truth literal => literal.token
  | expression e => e.token

end FieldValue

/-- The full name of an input field: the namespace, if there is one, and the name. -/
def qualifiedName (space? : Option Name) (name : Name) : String :=
  match space? with
  | some space => space.text ++ "." ++ name.text
  | none => name.text

/-- A new name for a field, with the token of the word that announces it. -/
structure FieldAlias where
  token : Token
  name : Name
deriving DecidableEq

/-- A field of a projection. -/
structure Field where
  value : FieldValue
  alias? : Option FieldAlias
deriving DecidableEq

namespace Field

/-- The token a field stands at: the announcing word for a renamed field, else its first token. -/
def token (field : Field) : Token :=
  match field.alias? with
  | some announced => announced.token
  | none => field.value.token

end Field

/-- Which fields of a source are taken. -/
inductive Fields
  /-- All of them. -/
  | star (token : Token)
  /-- The listed ones, at least one. -/
  | list (first : Field) (rest : List Field)
deriving DecidableEq

namespace Fields

/-- The first token of a choice of fields. -/
def token : Fields → Token
  | star token => token
  | list first _ => first.value.token

end Fields

/-- A condition on the records of a selection. -/
structure Filter where
  token : Token
  condition : Expression
deriving DecidableEq

/-- Where records come from. -/
inductive Source
  /-- A file. -/
  | file (token : Token) (fields : Fields) (path : TextLiteral)
  /-- A source that was named before. -/
  | named (name : Name)
  /-- Fields and records of another source. -/
  | select (token : Token) (fields : Fields) (source : Source) (filter? : Option Filter)
  /-- A source under a new name. -/
  | aliased (token : Token) (source : Source) (name : Name)
  /-- The pairs of records of two sources that satisfy a condition. -/
  | join (token : Token) (left right : Source) (condition : Expression)
deriving DecidableEq

namespace Source

/-- The token a source stands at. -/
def token : Source → Token
  | file token _ _ => token
  | named name => name.token
  | select token _ _ _ => token
  | aliased token _ _ => token
  | join token _ _ _ => token

end Source

/-- A variable with its type. -/
structure TypedName where
  token : Token
  name : Name
  typeName : Name
deriving DecidableEq

/-- A value of a variable. -/
inductive Value
  | text (literal : TextLiteral)
  | number (literal : NumberLiteral)
  | truth (literal : TruthLiteral)
  /-- Another variable, with the token of its `@`. -/
  | reference (token : Token) (name : Name)
  | expression (expression : Expression)
deriving DecidableEq

namespace Value

/-- The first token of a value. -/
def token : Value → Token
  | text literal => literal.token
  | number literal => literal.token
  | truth literal => literal.token
  | reference token _ => token
  | expression e => e.token

end Value

/-- A statement. -/
inductive Statement
  /-- Binds a name to a source. -/
  | assign (name : Name) (source : Source)
  /-- Writes a source to a file. -/
  | output (token : Token) (source : Source) (path : TextLiteral)
  /-- Declares a value that the caller supplies. -/
  | param (token : Token) (field : TypedName) (default? : Option Value)
  /-- Binds a name to something of another module. -/
  | importName (token : Token) (name : Name) (path : TextLiteral)
  /-- Offers a bound name to other modules. -/
  | exportName (token : Token) (name : Name)
  /-- Gives a variable a new value. -/
  | setVariable (token : Token) (name : Name) (value : Value)
  /-- Declares a variable with its value. -/
  | defineVariable (field : TypedName) (value : Value)
deriving DecidableEq

namespace Statement

/-- The first token of a statement. -/
def token : Statement → Token
  | assign name _ => name.token
  | output token _ _ => token
  | param token _ _ => token
  | importName token _ _ => token
  | exportName token _ => token
  | setVariable token _ _ => token
  | defineVariable field _ => field.token

end Statement

/-- A script: its first token and its statements in order. The first token of an empty script marks
the end of its text. -/
structure Script where
  token : Token
  statements : List Statement
deriving DecidableEq

end RecordFlow
