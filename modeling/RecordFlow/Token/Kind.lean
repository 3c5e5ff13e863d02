/-
# The vocabulary of scripts

Tokens fall into punctuation, reserved words, directives, literals, names, embedded expressions and
the end of the text. A kind says nothing about a payload. Reserved words and directive words are
matched letter by letter, so `select` is a name and not the keyword.
-/

namespace RecordFlow

/-- The tokens written with one character. -/
inductive Punctuation
  | semicolon
  | comma
  | star
  | equal
  | leftParen
  | rightParen
  | dot
  | colon
  | atSign
  | leftBrace
  | rightBrace
deriving DecidableEq, Repr, Inhabited

namespace Punctuation

/-- Every punctuation mark. -/
def all : List Punctuation :=
  [semicolon, comma, star, equal, leftParen, rightParen, dot, colon, atSign, leftBrace, rightBrace]

/-- The character that writes the mark. -/
def char : Punctuation → Char
  | semicolon => ';'
  | comma => ','
  | star => '*'
  | equal => '='
  | leftParen => '('
  | rightParen => ')'
  | dot => '.'
  | colon => ':'
  | atSign => '@'
  | leftBrace => '{'
  | rightBrace => '}'

/-- The mark that a character writes. -/
def ofChar? (c : Char) : Option Punctuation := all.find? (·.char == c)

/-- The name of the mark in a token report. -/
def name : Punctuation → String
  | semicolon => "Semicolon"
  | comma => "Comma"
  | star => "Star"
  | equal => "Equal"
  | leftParen => "LParen"
  | rightParen => "RParen"
  | dot => "Dot"
  | colon => "Colon"
  | atSign => "At"
  | leftBrace => "LBrace"
  | rightBrace => "RBrace"

end Punctuation

/-- The reserved words, named as they are written. -/
inductive Keyword
  | SELECT
  | FROM
  | EXTRACT
  | OUTPUT
  | WHERE
  | AS
  | TO
  | INNER
  | LEFT
  | RIGHT
  | OUTER
  | JOIN
  | ON
  | PARAM
  | IMPORT
  | EXPORT
deriving DecidableEq, Repr, Inhabited

namespace Keyword

/-- Every reserved word. -/
def all : List Keyword :=
  [SELECT, FROM, EXTRACT, OUTPUT, WHERE, AS, TO, INNER, LEFT, RIGHT, OUTER, JOIN, ON, PARAM,
    IMPORT, EXPORT]

/-- The letters of the word. -/
def word : Keyword → String
  | SELECT => "SELECT"
  | FROM => "FROM"
  | EXTRACT => "EXTRACT"
  | OUTPUT => "OUTPUT"
  | WHERE => "WHERE"
  | AS => "AS"
  | TO => "TO"
  | INNER => "INNER"
  | LEFT => "LEFT"
  | RIGHT => "RIGHT"
  | OUTER => "OUTER"
  | JOIN => "JOIN"
  | ON => "ON"
  | PARAM => "PARAM"
  | IMPORT => "IMPORT"
  | EXPORT => "EXPORT"

/-- The reserved word with these letters. -/
def ofWord? (w : String) : Option Keyword := all.find? (·.word == w)

/-- The name of the word in a token report. -/
def name : Keyword → String
  | SELECT => "Select"
  | FROM => "From"
  | EXTRACT => "Extract"
  | OUTPUT => "Output"
  | WHERE => "Where"
  | AS => "As"
  | TO => "To"
  | INNER => "Inner"
  | LEFT => "Left"
  | RIGHT => "Right"
  | OUTER => "Outer"
  | JOIN => "Join"
  | ON => "On"
  | PARAM => "Param"
  | IMPORT => "Import"
  | EXPORT => "Export"

end Keyword

/-- The directives, which a script writes with `#` in front. All of them are reserved, and no
statement begins with one. -/
inductive Directive
  | DECLARE
  | SET
  | IF
  | ELSE
  | END
  | ERROR
  | WARN
deriving DecidableEq, Repr, Inhabited

namespace Directive

/-- Every directive. -/
def all : List Directive := [DECLARE, SET, IF, ELSE, END, ERROR, WARN]

/-- The letters after the `#`. -/
def word : Directive → String
  | DECLARE => "DECLARE"
  | SET => "SET"
  | IF => "IF"
  | ELSE => "ELSE"
  | END => "END"
  | ERROR => "ERROR"
  | WARN => "WARN"

/-- The directive with these letters. -/
def ofWord? (w : String) : Option Directive := all.find? (·.word == w)

/-- The name of the directive in a token report. -/
def name : Directive → String
  | DECLARE => "Declare"
  | SET => "Set"
  | IF => "If"
  | ELSE => "Else"
  | END => "End"
  | ERROR => "Error"
  | WARN => "Warn"

end Directive

/-- The kind of a token. -/
inductive TokenKind
  /-- A mark of one character. -/
  | punctuation (mark : Punctuation)
  /-- A reserved word. -/
  | keyword (word : Keyword)
  /-- A directive with its `#`. -/
  | directive (word : Directive)
  /-- A text in double quotes. -/
  | string
  /-- A number without a point. -/
  | integer
  /-- A number with a point. -/
  | decimal
  /-- One of the words `true` and `false`. -/
  | boolean
  /-- A name of a source, a field, a variable or a type. -/
  | identifier
  /-- Code of the target language between two pairs of braces. -/
  | expression
  /-- The end of the text. -/
  | endOfFile
deriving DecidableEq, Repr, Inhabited

namespace TokenKind

/-- Every kind. -/
def all : List TokenKind :=
  Punctuation.all.map punctuation ++ Keyword.all.map keyword ++ Directive.all.map directive
    ++ [string, integer, decimal, boolean, identifier, expression, endOfFile]

/-- The name of the kind in a token report. -/
def name : TokenKind → String
  | punctuation mark => mark.name
  | keyword word => word.name
  | directive word => word.name
  | string => "String"
  | integer => "Integer"
  | decimal => "Decimal"
  | boolean => "Boolean"
  | identifier => "Identifier"
  | expression => "TsExpression"
  | endOfFile => "EndOfFile"

/-- The kind with this name in a token report. -/
def ofName? (n : String) : Option TokenKind := all.find? (·.name == n)

/-- How error messages speak of a token of this kind. -/
def description : TokenKind → String
  | punctuation mark => "'" ++ mark.char.toString ++ "'"
  | keyword word => word.word
  | directive word => "#" ++ word.word
  | string => "string"
  | integer => "integer"
  | decimal => "decimal"
  | boolean => "boolean"
  | identifier => "identifier"
  | expression => "expression"
  | endOfFile => "end of file"

/-- Whether the kind is one of the directives. -/
def isDirective : TokenKind → Bool
  | directive _ => true
  | _ => false

/-- Whether the kind is one of the four words that announce a join. -/
def isJoinOperator : TokenKind → Bool
  | keyword .INNER | keyword .LEFT | keyword .RIGHT | keyword .OUTER => true
  | _ => false

/-- The kind of a word that the language reserves. The two truth values are reserved as well. -/
def ofWord? (w : String) : Option TokenKind :=
  if w = "true" ∨ w = "false" then some boolean else (Keyword.ofWord? w).map keyword

end TokenKind

end RecordFlow
