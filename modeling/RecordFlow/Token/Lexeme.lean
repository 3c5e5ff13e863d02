/-
# Reading one lexeme

A lexeme is the written form of one token. The character it begins with decides what is read: a
quote a string, two braces an expression, `#` a directive, a letter a word, a digit a number, and
all else is one punctuation mark or a fault. A reading tells the characters it consumed and those it
left, also when it fails, so that scanning can go on behind a fault.
-/

import RecordFlow.Text.Alphabetic
import RecordFlow.Text.Blank
import RecordFlow.Text.Numeric
import RecordFlow.Token.Basic
import RecordFlow.Token.Escaped

namespace RecordFlow

/-- What is wrong with a text that begins with no lexeme. -/
inductive LexFault
  | unterminatedComment
  | unterminatedString
  | unterminatedExpression
  /-- The letters after a `#` are no directive; there may be none. -/
  | unknownDirective (word : String)
  /-- No lexeme begins with this character. -/
  | unexpectedCharacter (c : Char)
  /-- The digits are no decimal. -/
  | invalidNumber (digits : String)
deriving DecidableEq

/-- The wording of a fault. -/
def LexFault.message : LexFault → String
  | unterminatedComment => "unterminated block comment, expected '*/'"
  | unterminatedString => "unterminated string literal, expected '\"'"
  | unterminatedExpression => "unterminated expression, expected '\x7d\x7d'"
  | unknownDirective word => "unknown directive '#" ++ word ++ "'"
  | unexpectedCharacter c => "unexpected character '" ++ c.toString ++ "'"
  | invalidNumber digits => "invalid number '" ++ digits ++ "'"

namespace Scan

/-- A kind with the payload that belongs to it. -/
structure Classified where
  kind : TokenKind
  value : Option Literal
deriving DecidableEq

/-- The outcome of reading at the beginning of a text. -/
structure Reading where
  /-- What the consumed characters are. -/
  outcome : Except LexFault Classified
  /-- The characters that were read. -/
  consumed : List Char
  /-- The characters behind them. -/
  rest : List Char

/-- A character that a word may begin with. -/
def isWordStart (c : Char) : Bool := Text.isAlphabetic c || c == '_'

/-- A character that a word may go on with. -/
def isWordChar (c : Char) : Bool := Text.isAlphabetic c || Text.isNumeric c || c == '_'

/-- A word is a truth value, a reserved word or a name. -/
def classifyWord (word : String) : Classified :=
  match TokenKind.ofWord? word with
  | some .boolean => ⟨.boolean, some (.truth (word == "true"))⟩
  | some kind => ⟨kind, none⟩
  | none => ⟨.identifier, some (.text word)⟩

/-- The longest word that begins with `c`. -/
def readWord (c : Char) (cs : List Char) : Reading :=
  let word := c :: cs.takeWhile isWordChar
  ⟨.ok (classifyWord (String.ofList word)), word, cs.dropWhile isWordChar⟩

/-- The digits of a number that begins with `c`, whether a point is among them, and what follows. A
point belongs to the number when it is the first and a digit follows it. -/
def splitNumber (c : Char) (cs : List Char) : List Char × Bool × List Char :=
  let whole := c :: cs.takeWhile Char.isDigit
  match cs.dropWhile Char.isDigit with
  | '.' :: d :: rest =>
      if d.isDigit then
        (whole ++ '.' :: (d :: rest).takeWhile Char.isDigit, true,
          (d :: rest).dropWhile Char.isDigit)
      else (whole, false, '.' :: d :: rest)
  | rest => (whole, false, rest)

/-- The longest number that begins with the digit `c`. -/
def readNumber (c : Char) (cs : List Char) : Reading :=
  let (digits, fractional, rest) := splitNumber c cs
  let outcome :=
    match Decimal.ofDigitChars? digits with
    | some value => .ok ⟨if fractional then .decimal else .integer, some (.number value)⟩
    | none => .error (.invalidNumber (String.ofList digits))
  ⟨outcome, digits, rest⟩

/-- A string, after its opening quote. -/
def readString (cs : List Char) : Reading :=
  match upToCloser ['"'] false cs with
  | some (body, rest) =>
      ⟨.ok ⟨.string, some (.text (String.ofList body))⟩, '"' :: (body ++ ['"']), rest⟩
  | none => ⟨.error .unterminatedString, '"' :: cs, []⟩

/-- An expression, after its two opening braces. Its code is trimmed. -/
def readExpression (cs : List Char) : Reading :=
  match upToCloser ['}', '}'] false cs with
  | some (body, rest) =>
      ⟨.ok ⟨.expression, some (.text (String.ofList (Text.trim body)))⟩,
        '{' :: '{' :: (body ++ ['}', '}']), rest⟩
  | none => ⟨.error .unterminatedExpression, '{' :: '{' :: cs, []⟩

/-- A directive, after its `#`. Its word is the longest run of letters. -/
def readDirective (cs : List Char) : Reading :=
  let letters := cs.takeWhile Text.isAlphabetic
  let word := String.ofList letters
  let outcome :=
    match Directive.ofWord? word with
    | some directive => .ok ⟨.directive directive, none⟩
    | none => .error (.unknownDirective word)
  ⟨outcome, '#' :: letters, cs.dropWhile Text.isAlphabetic⟩

/-- Read at the beginning of the text `c :: cs`, which begins with no trivia. The beginning of a
comment is then one that has no end. -/
def readLexeme (c : Char) (cs : List Char) : Reading :=
  match c, cs with
  | '"', cs => readString cs
  | '{', '{' :: cs => readExpression cs
  | '#', cs => readDirective cs
  | '/', '*' :: cs => ⟨.error .unterminatedComment, '/' :: '*' :: cs, []⟩
  | c, cs =>
      match Punctuation.ofChar? c with
      | some mark => ⟨.ok ⟨.punctuation mark, none⟩, [c], cs⟩
      | none =>
          if isWordStart c then readWord c cs
          else if c.isDigit then readNumber c cs
          else ⟨.error (.unexpectedCharacter c), [], c :: cs⟩

/-- The number and what follows it make up the text. -/
theorem splitNumber_append (c : Char) (cs : List Char) :
    (splitNumber c cs).1 ++ (splitNumber c cs).2.2 = c :: cs := by
  have hwhole := List.takeWhile_append_dropWhile (p := Char.isDigit) (l := cs)
  unfold splitNumber
  split
  · next d rest hrest =>
      rw [hrest] at hwhole
      split
      · simp [List.takeWhile_append_dropWhile, hwhole]
      · simp [hwhole]
  · simp [hwhole]

/-- A number has at least one digit. -/
theorem splitNumber_ne_nil (c : Char) (cs : List Char) : (splitNumber c cs).1 ≠ [] := by
  unfold splitNumber
  split
  · split <;> simp
  · simp

/-- Reading loses nothing: what it consumed and what it left make up the text. -/
theorem readLexeme_append (c : Char) (cs : List Char) :
    (readLexeme c cs).consumed ++ (readLexeme c cs).rest = c :: cs := by
  unfold readLexeme
  split
  · unfold readString
    split
    · next body rest h => simp [← upToCloser_append h]
    · simp
  · unfold readExpression
    split
    · next body rest h => simp [← upToCloser_append h]
    · simp
  · simp [readDirective, List.takeWhile_append_dropWhile]
  · simp
  · split
    · rfl
    · split
      · simp [readWord, List.takeWhile_append_dropWhile]
      · split
        · exact splitNumber_append _ _
        · rfl

/-- A lexeme has at least one character. -/
theorem readLexeme_consumed_ne_nil {c : Char} {cs : List Char} {value : Classified} :
    (readLexeme c cs).outcome = .ok value → (readLexeme c cs).consumed ≠ [] := by
  unfold readLexeme
  split
  · unfold readString
    split <;> simp
  · unfold readExpression
    split <;> simp
  · simp [readDirective]
  · simp
  · split
    · simp
    · split
      · simp [readWord]
      · split
        · intro _
          exact splitNumber_ne_nil _ _
        · simp

/-- Behind a lexeme the text is shorter. -/
theorem readLexeme_rest_length_lt {c : Char} {cs : List Char} {value : Classified}
    (h : (readLexeme c cs).outcome = .ok value) :
    (readLexeme c cs).rest.length < (c :: cs).length := by
  have hpos := List.length_pos_iff.mpr (readLexeme_consumed_ne_nil h)
  rw [← readLexeme_append c cs, List.length_append]
  omega

end Scan

end RecordFlow
