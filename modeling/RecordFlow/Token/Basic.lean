/-
# Tokens

A token is a kind, a payload and the place where its first character stands. Scanning pairs kinds
with payloads in a fixed way, but the type admits every pairing: a reader of tokens has to give an
answer for each list of tokens that a caller may build.
-/

import RecordFlow.Decimal
import RecordFlow.Text.Position
import RecordFlow.Token.Kind

namespace RecordFlow

/-- The payload of a token. -/
inductive Literal
  /-- The inside of a string, a name, or the code of an expression, as written. -/
  | text (value : String)
  /-- A number, with or without a point. -/
  | number (value : Decimal)
  /-- A truth value. -/
  | truth (value : Bool)
deriving DecidableEq

/-- The word for a truth value. -/
def truthWord (value : Bool) : String := if value then "true" else "false"

/-- A piece of a script. -/
structure Token where
  kind : TokenKind
  value : Option Literal
  position : Position
deriving DecidableEq

namespace Token

/-- A token without a payload. -/
def plain (kind : TokenKind) (position : Position) : Token := ⟨kind, none, position⟩

/-- The text that a token carries. -/
def text? (t : Token) : Option String :=
  match t.value with
  | some (.text value) => some value
  | _ => none

/-- The number that a token carries. -/
def number? (t : Token) : Option Decimal :=
  match t.value with
  | some (.number value) => some value
  | _ => none

/-- The truth value that a token carries. -/
def truth? (t : Token) : Option Bool :=
  match t.value with
  | some (.truth value) => some value
  | _ => none

/-- The written form of the payload: a string keeps its quotes, and all else stands bare. -/
def valueText (t : Token) : String :=
  match t.value with
  | some (.text value) => if t.kind = .string then "\"" ++ value ++ "\"" else value
  | some (.number value) => value.text
  | some (.truth value) => truthWord value
  | none => ""

/-- How error messages speak of a token: the kind, and the payload when there is one. -/
def description (t : Token) : String :=
  match t.value with
  | some (.text value) =>
      if t.kind = .string then t.kind.description ++ " \"" ++ value ++ "\""
      else t.kind.description ++ " '" ++ value ++ "'"
  | some (.number value) => t.kind.description ++ " " ++ value.text
  | some (.truth value) => t.kind.description ++ " " ++ truthWord value
  | none => t.kind.description

end Token

end RecordFlow
