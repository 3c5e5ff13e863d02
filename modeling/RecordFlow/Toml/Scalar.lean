/-
# TOML numbers, truth values and dates

Nothing here asks for the value of a number or a date, only for whether it is one. So each is a
question about a word: the longest run of characters that such a value may have. An integer has to
fit in 64 bits, a number with a fraction may not be too large for a double, and a date has to be one
of the calendar.
-/

import RecordFlow.Toml.Text
import RecordFlow.Toml.Value

namespace RecordFlow.Toml

/-- Digits of a class with single underscores between them. -/
def isDigits (p : Char → Bool) : List Char → Bool
  | [] => false
  | [c] => p c
  | c :: '_' :: rest => p c && isDigits p rest
  | c :: rest => p c && isDigits p rest

/-- A word without its sign. -/
def unsigned : List Char → List Char
  | '+' :: rest => rest
  | '-' :: rest => rest
  | cs => cs

/-- Digits of a whole number, which begins with zero only if it is zero. -/
def isWhole (cs : List Char) : Bool :=
  isDigits Char.isDigit cs && (cs == ['0'] || cs.head? != some '0')

/-- The number that digits write in a base. Underscores count for nothing. -/
def digitsValue (base : Nat) (cs : List Char) : Nat :=
  (cs.filterMap hexValue?).foldl (fun n d => n * base + d) 0

/-- The first whole number that is no integer of 64 bits. -/
def integerBound : Nat := Nat.pow 2 63

/-- An integer of 64 bits. -/
def isInteger (cs : List Char) : Bool :=
  match cs with
  | '0' :: 'x' :: rest =>
      isDigits (fun c => (hexValue? c).isSome) rest && digitsValue 16 rest < integerBound
  | '0' :: 'o' :: rest =>
      isDigits (fun c => '0' ≤ c && c ≤ '7') rest && digitsValue 8 rest < integerBound
  | '0' :: 'b' :: rest =>
      isDigits (fun c => c == '0' || c == '1') rest && digitsValue 2 rest < integerBound
  | '-' :: rest => isWhole rest && digitsValue 10 rest ≤ integerBound
  | cs => isWhole (unsigned cs) && digitsValue 10 (unsigned cs) < integerBound

/-- Whether a character announces an exponent. -/
def isExponentMark (c : Char) : Bool := c == 'e' || c == 'E'

/-- The digits of a number around its point, and its exponent. -/
structure FloatParts where
  whole : List Char
  fraction : List Char
  exponent : Int

/-- The exponent that stands behind a number, which is zero if none does. -/
def exponent? : List Char → Option Int
  | [] => some 0
  | _ :: rest =>
      let digits := unsigned rest
      if isDigits Char.isDigit digits then
        let size : Int := digitsValue 10 digits
        some (if rest.head? = some '-' then -size else size)
      else none

/-- The parts of a number with a fraction or an exponent or both, without its sign. -/
def floatParts? (cs : List Char) : Option FloatParts := do
  let whole := cs.takeWhile fun c => c != '.' && !isExponentMark c
  guard (isWhole whole)
  match cs.drop whole.length with
  | [] => none
  | '.' :: rest =>
      let fraction := rest.takeWhile fun c => !isExponentMark c
      guard (isDigits Char.isDigit fraction)
      return ⟨whole, fraction, ← exponent? (rest.drop fraction.length)⟩
  | rest => return ⟨whole, [], ← exponent? rest⟩

/-- Half a step above the greatest double. What is not below it rounds to infinity. -/
def doubleBound : Nat := Nat.pow 2 1024 - Nat.pow 2 970

/-- Whether a number has no double near it but infinity. A number of more than 309 digits before its
point always has none, and one of fewer never, so that only a number of 309 has to be worked out. -/
def FloatParts.isHuge (p : FloatParts) : Bool :=
  let digits := (p.whole ++ p.fraction).filter Char.isDigit
  let mantissa := digitsValue 10 digits
  let scale := p.exponent - (p.fraction.filter Char.isDigit).length
  let order := (digits.dropWhile (· == '0')).length + scale
  if mantissa = 0 ∨ order < 309 then false
  else if 309 < order then true
  else doubleBound * Nat.pow 10 (-scale).toNat ≤ mantissa * Nat.pow 10 scale.toNat

/-- A number with a fraction or an exponent, or one of the special words. A number that is written
without a minus sign may not round to infinity. -/
def isFloat (cs : List Char) : Bool :=
  let size := unsigned cs
  if size == ['i', 'n', 'f'] || size == ['n', 'a', 'n'] then true
  else
    match floatParts? size with
    | some parts => cs.head? == some '-' || !parts.isHuge
    | none => false

/-- The number that exactly two digits write. -/
def twoDigits? : List Char → Option Nat
  | [a, b] => if a.isDigit && b.isDigit then some (digitsValue 10 [a, b]) else none
  | _ => none

/-- The days of a month. -/
def daysIn (year month : Nat) : Nat :=
  if month = 2 then
    if year % 4 = 0 ∧ (year % 100 ≠ 0 ∨ year % 400 = 0) then 29 else 28
  else if month = 4 ∨ month = 6 ∨ month = 9 ∨ month = 11 then 30
  else 31

/-- A date in the form `YYYY-MM-DD`. -/
def isDate : List Char → Bool
  | [y1, y2, y3, y4, '-', m1, m2, '-', d1, d2] =>
      let year := [y1, y2, y3, y4]
      year.all Char.isDigit &&
        match twoDigits? [m1, m2], twoDigits? [d1, d2] with
        | some month, some day =>
            1 ≤ month && month ≤ 12 && 1 ≤ day && day ≤ daysIn (digitsValue 10 year) month
        | _, _ => false
  | _ => false

/-- Hours and minutes in the form `HH:MM`. -/
def isHourMinute : List Char → Bool
  | [h1, h2, ':', m1, m2] =>
      match twoDigits? [h1, h2], twoDigits? [m1, m2] with
      | some hour, some minute => hour ≤ 23 && minute ≤ 59
      | _, _ => false
  | _ => false

/-- A time in the form `HH:MM:SS`, with or without a fraction of a second. -/
def isTime (cs : List Char) : Bool :=
  isHourMinute (cs.take 5) &&
    match cs.drop 5 with
    | ':' :: s1 :: s2 :: rest =>
        (match twoDigits? [s1, s2] with
          | some second => second ≤ 60
          | none => false) &&
        match rest with
        | [] => true
        | '.' :: digits => !digits.isEmpty && digits.all Char.isDigit
        | _ => false
    | _ => false

/-- A time, with or without the offset of its zone. -/
def isZonedTime (cs : List Char) : Bool :=
  let isClock := fun c => Char.isDigit c || c == ':' || c == '.'
  isTime (cs.takeWhile isClock) &&
    match cs.dropWhile isClock with
    | [] => true
    | ['Z'] => true
    | ['z'] => true
    | '+' :: rest => isHourMinute rest
    | '-' :: rest => isHourMinute rest
    | _ => false

/-- A date, a time, or both. -/
def isDateTime (cs : List Char) : Bool :=
  isDate cs || isTime cs ||
    (isDate (cs.take 10) &&
      match cs.drop 10 with
      | c :: rest => (c == 'T' || c == 't' || c == ' ') && isZonedTime rest
      | [] => false)

/-- A character of a number, a truth value or a date. -/
def isScalarChar (c : Char) : Bool :=
  c.isAlphanum || c == '_' || c == '+' || c == '-' || c == '.' || c == ':'

/-- The word of a value at the beginning of a text, and what follows it. A date takes the time
behind one blank with it. -/
def scalarWord (cs : List Char) : List Char × List Char :=
  let word := cs.takeWhile isScalarChar
  let rest := cs.dropWhile isScalarChar
  match rest with
  | ' ' :: d :: more =>
      if isDate word && d.isDigit then
        (word ++ ' ' :: (d :: more).takeWhile isScalarChar, (d :: more).dropWhile isScalarChar)
      else (word, rest)
  | _ => (word, rest)

/-- Take a number, a truth value or a date. -/
def scalar : Reader Value := fun cs =>
  let (word, rest) := scalarWord cs
  if word == ['t', 'r', 'u', 'e'] || word == ['f', 'a', 'l', 's', 'e'] then some (.scalar, rest)
  else if isDateTime word then some (.dateTime, rest)
  else if isFloat word || isInteger word then some (.scalar, rest)
  else none

end RecordFlow.Toml
