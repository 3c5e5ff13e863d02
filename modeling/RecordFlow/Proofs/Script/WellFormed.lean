/-
# Well-formed scripts

A node keeps the token it stands at. In a well-formed script that token has the kind that the node
calls for, and a name or a literal is what the payload of its token says it is, where a payload that
is missing counts as empty, as zero or as false. The types admit other trees, but no list of tokens
is read as one of them.
-/

import RecordFlow.Script.Production.Statement

namespace RecordFlow

/-- A name that stands at a name and is spelled like it. -/
def Name.WellFormed (name : Name) : Prop :=
  name.token.kind = .identifier ∧ name = .ofToken name.token

/-- A text that stands at a text in quotes and is what stands between them. -/
def TextLiteral.WellFormed (literal : TextLiteral) : Prop :=
  literal.token.kind = .string ∧ literal = .ofToken literal.token

/-- A number that stands at a number, with or without a point, and has its value. -/
def NumberLiteral.WellFormed (literal : NumberLiteral) : Prop :=
  (literal.token.kind = .integer ∨ literal.token.kind = .decimal) ∧
    literal = .ofToken literal.token

/-- A truth value that stands at one of its two words. -/
def TruthLiteral.WellFormed (literal : TruthLiteral) : Prop :=
  literal.token.kind = .boolean ∧ literal = .ofToken literal.token

/-- An expression that stands at an expression and has its code. -/
def Expression.WellFormed (e : Expression) : Prop :=
  e.token.kind = .expression ∧ e = .ofToken e.token

/-- A value of a field all of whose parts are well formed. -/
def FieldValue.WellFormed : FieldValue → Prop
  | input none name => name.WellFormed
  | input (some space) name => space.WellFormed ∧ name.WellFormed
  | text literal => literal.WellFormed
  | number literal => literal.WellFormed
  | truth literal => literal.WellFormed
  | expression e => e.WellFormed

/-- A field whose alias, if it has one, stands at the word `AS`. -/
def Field.WellFormed (field : Field) : Prop :=
  field.value.WellFormed ∧
    ∀ announced ∈ field.alias?, announced.token.kind = .keyword .AS ∧ announced.name.WellFormed

/-- A choice of fields all of which are well formed. -/
def Fields.WellFormed : Fields → Prop
  | star token => token.kind = .punctuation .star
  | list first rest => first.WellFormed ∧ ∀ field ∈ rest, field.WellFormed

/-- A condition that stands at the word `WHERE`. -/
def Filter.WellFormed (filter : Filter) : Prop :=
  filter.token.kind = .keyword .WHERE ∧ filter.condition.WellFormed

/-- A source every node of which stands at the word that announces it. A join stands at one of the
four words for a join. -/
def Source.WellFormed : Source → Prop
  | file token fields path => token.kind = .keyword .EXTRACT ∧ fields.WellFormed ∧ path.WellFormed
  | named name => name.WellFormed
  | select token fields source filter? =>
      token.kind = .keyword .SELECT ∧ fields.WellFormed ∧ source.WellFormed ∧
        ∀ filter ∈ filter?, filter.WellFormed
  | aliased token source name =>
      token.kind = .keyword .AS ∧ source.WellFormed ∧ name.WellFormed
  | join token left right condition =>
      token.kind.isJoinOperator ∧ left.WellFormed ∧ right.WellFormed ∧ condition.WellFormed

/-- A variable with a type that stands at its `@`. -/
def TypedName.WellFormed (typed : TypedName) : Prop :=
  typed.token.kind = .punctuation .atSign ∧ typed.name.WellFormed ∧ typed.typeName.WellFormed

/-- A value of a variable that is well formed; another variable stands at its `@`. -/
def Value.WellFormed : Value → Prop
  | text literal => literal.WellFormed
  | number literal => literal.WellFormed
  | truth literal => literal.WellFormed
  | reference token name => token.kind = .punctuation .atSign ∧ name.WellFormed
  | expression e => e.WellFormed

/-- A statement that stands at its first word and all of whose parts are well formed. -/
def Statement.WellFormed : Statement → Prop
  | assign name source => name.WellFormed ∧ source.WellFormed
  | output token source path =>
      token.kind = .keyword .OUTPUT ∧ source.WellFormed ∧ path.WellFormed
  | param token field default? =>
      token.kind = .keyword .PARAM ∧ field.WellFormed ∧ ∀ value ∈ default?, value.WellFormed
  | importName token name path =>
      token.kind = .keyword .IMPORT ∧ name.WellFormed ∧ path.WellFormed
  | exportName token name => token.kind = .keyword .EXPORT ∧ name.WellFormed
  | setVariable token name value =>
      token.kind = .punctuation .atSign ∧ name.WellFormed ∧ value.WellFormed
  | defineVariable field value => field.WellFormed ∧ value.WellFormed

/-- A script all of whose statements are well formed. -/
def Script.WellFormed (script : Script) : Prop :=
  ∀ statement ∈ script.statements, statement.WellFormed

end RecordFlow
