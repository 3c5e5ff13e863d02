/-
# Writing scripts

A script is written as tokens. Every token that a node keeps is written where it stood; the words
and marks between them are kept by no node, and a layout supplies them. Joins are written one after
another from left to right. A source inside another one is put in parentheses where what follows it
could otherwise be taken for a part of it, or where the grammar asks for it, and a layout is free to
add parentheses anywhere else.
-/

import RecordFlow.Script.Basic

namespace RecordFlow

/-- The places of a source. -/
inductive Source.Place
  /-- In an assignment or an output. -/
  | statement
  /-- Behind the word `FROM` of a selection. -/
  | selection
  /-- In front of a join. -/
  | left
  /-- Behind a join. -/
  | right
  /-- In front of an alias. -/
  | renamed
deriving DecidableEq, Repr

namespace Source.Place

/-- Whether a source needs parentheses in a place. A selection needs them inside another source. A
join stands bare only in a selection and on the left of another join, and an alias only in a
selection and on either side of a join. -/
def needsParens : Place → Source → Bool
  | statement, .aliased _ _ _ => true
  | statement, .join _ _ _ _ => true
  | selection, .select _ _ _ _ => true
  | left, .select _ _ _ _ => true
  | right, .select _ _ _ _ => true
  | right, .join _ _ _ _ => true
  | renamed, .select _ _ _ _ => true
  | renamed, .aliased _ _ _ => true
  | renamed, .join _ _ _ _ => true
  | _, _ => false

end Source.Place

/-- What is free in writing a script. -/
structure Layout where
  /-- The token for a word or a mark that no node keeps. -/
  glue : TokenKind → Token
  /-- It is a token of that kind. -/
  kind_glue : ∀ kind, (glue kind).kind = kind
  /-- Whether a source gets parentheses in a place where it does not need them. -/
  extraParens : Source.Place → Source → Bool

namespace Layout

variable (layout : Layout)

/-- A reserved word. -/
def word (keyword : Keyword) : Token := layout.glue (.keyword keyword)

/-- A punctuation mark. -/
def mark (punctuation : Punctuation) : Token := layout.glue (.punctuation punctuation)

@[simp]
theorem kind_word (keyword : Keyword) : (layout.word keyword).kind = .keyword keyword :=
  layout.kind_glue _

@[simp]
theorem kind_mark (punctuation : Punctuation) :
    (layout.mark punctuation).kind = .punctuation punctuation :=
  layout.kind_glue _

/-- Write the value of a field. -/
def fieldValue : FieldValue → List Token
  | .input none name => [name.token]
  | .input (some space) name => [space.token, layout.mark .dot, name.token]
  | .text literal => [literal.token]
  | .number literal => [literal.token]
  | .truth literal => [literal.token]
  | .expression e => [e.token]

/-- Write the alias of a field, if it has one. -/
def fieldAlias : Option FieldAlias → List Token
  | some announced => [announced.token, announced.name.token]
  | none => []

/-- Write a field. -/
def field (f : Field) : List Token := layout.fieldValue f.value ++ fieldAlias f.alias?

/-- Write the fields after the first. -/
def moreFields (rest : List Field) : List Token :=
  rest.flatMap fun f => layout.mark .comma :: layout.field f

/-- Write a choice of fields. -/
def fields : Fields → List Token
  | .star token => [token]
  | .list first rest => layout.field first ++ layout.moreFields rest

/-- Write a condition on records, if there is one. -/
def filter : Option Filter → List Token
  | some f => [f.token, f.condition.token]
  | none => []

/-- Put tokens in parentheses. -/
def parens (ts : List Token) : List Token :=
  layout.mark .leftParen :: (ts ++ [layout.mark .rightParen])

/-- Put the tokens of a source in parentheses if its place or the layout asks for them. -/
def enclose (place : Source.Place) (source : Source) (ts : List Token) : List Token :=
  if place.needsParens source || layout.extraParens place source then layout.parens ts else ts

/-- Write a source without parentheses around it. -/
def bare : Source → List Token
  | .file token choice path =>
      token :: (layout.fields choice ++ [layout.word .FROM, path.token])
  | .named name => [name.token]
  | .select token choice source filter? =>
      token :: (layout.fields choice ++ layout.word .FROM ::
        (layout.enclose .selection source (bare source) ++ filter filter?))
  | .aliased token source name =>
      layout.enclose .renamed source (bare source) ++ [token, name.token]
  | .join token left right condition =>
      layout.enclose .left left (bare left) ++ token :: layout.word .JOIN ::
        (layout.enclose .right right (bare right) ++ [layout.word .ON, condition.token])

/-- Write a source in its place. -/
def source (place : Source.Place) (s : Source) : List Token :=
  layout.enclose place s (layout.bare s)

/-- Write a value of a variable. -/
def value : Value → List Token
  | .text literal => [literal.token]
  | .number literal => [literal.token]
  | .truth literal => [literal.token]
  | .reference token name => [token, name.token]
  | .expression e => [e.token]

/-- Write a default value, if there is one. -/
def default? : Option Value → List Token
  | some v => layout.mark .equal :: value v
  | none => []

/-- Write a statement up to its semicolon. -/
def body : Statement → List Token
  | .assign name source => name.token :: layout.mark .equal :: layout.source .statement source
  | .output token source path =>
      token :: (layout.source .statement source ++ [layout.word .TO, path.token])
  | .param token typed value? =>
      token :: typed.token :: typed.name.token :: layout.mark .colon :: typed.typeName.token ::
        layout.default? value?
  | .importName token name path => [token, name.token, layout.word .FROM, path.token]
  | .exportName token name => [token, name.token]
  | .setVariable token name assigned =>
      token :: name.token :: layout.mark .equal :: value assigned
  | .defineVariable typed assigned =>
      typed.token :: typed.name.token :: layout.mark .colon :: typed.typeName.token ::
        layout.mark .equal :: value assigned

/-- Write statements, each with its semicolon. -/
def statements (list : List Statement) : List Token :=
  list.flatMap fun statement => layout.body statement ++ [layout.mark .semicolon]

/-- Write a script, with the token that marks the end of the text. -/
def script (s : Script) : List Token := layout.statements s.statements ++ [layout.glue .endOfFile]

end Layout

end RecordFlow
