/-
# Decimal numbers with a bounded coefficient

A number of a script keeps the digits that were written: `3.50` is not `3.5`. A decimal is a whole
coefficient below `2 ^ 96` and the number of its digits that stand after the point, at most 28.
Reading stops at the first digit that would break one of the two bounds. A whole number is then
refused; a number with a point is rounded at that digit, and what follows it is ignored.
-/

namespace RecordFlow

/-- The first coefficient that does not fit in twelve bytes. -/
def coefficientBound : Nat := Nat.pow 2 96

/-- A decimal number. Numbers of equal value and different scale are different decimals. -/
structure Decimal where
  /-- Whether the number is below zero. -/
  negative : Bool
  /-- The digits of the number without its point and sign. -/
  mantissa : Nat
  /-- The number of digits after the point. -/
  scale : Nat
  /-- The digits fit in twelve bytes. -/
  mantissa_lt : mantissa < coefficientBound
  /-- The point stands before the last 28 digits or further right. -/
  scale_le : scale ≤ 28
  /-- Zero has no sign. -/
  mantissa_ne_zero : negative = true → mantissa ≠ 0
deriving DecidableEq

namespace Decimal

/-- The number zero with no digit after the point. -/
def zero : Decimal where
  negative := false
  mantissa := 0
  scale := 0
  mantissa_lt := by decide
  scale_le := by decide
  mantissa_ne_zero := by simp

instance : Inhabited Decimal := ⟨zero⟩

/-- A number that is not below zero. -/
def ofDigits (mantissa scale : Nat) (mantissa_lt : mantissa < coefficientBound)
    (scale_le : scale ≤ 28) : Decimal where
  negative := false
  mantissa := mantissa
  scale := scale
  mantissa_lt := mantissa_lt
  scale_le := scale_le
  mantissa_ne_zero := by simp

/-- The same digits below zero; zero itself stays as it is. -/
def neg (d : Decimal) : Decimal :=
  if h : d.mantissa = 0 then d else { d with negative := true, mantissa_ne_zero := fun _ => h }

/-- The number with one more digit, behind the point when `fractional` holds, if it fits. -/
def push? (d : Decimal) (fractional : Bool) (digit : Nat) : Option Decimal :=
  if h : d.mantissa * 10 + digit < coefficientBound then
    if fractional then
      if h' : d.scale < 28 then
        some (ofDigits (d.mantissa * 10 + digit) (d.scale + 1) h h')
      else none
    else some (ofDigits (d.mantissa * 10 + digit) d.scale h d.scale_le)
  else none

/-- The number rounded at a digit that did not fit: from five on the last digit goes up. If that
overflows the coefficient, one digit after the point is given up, or the number is refused when
there is none to give. -/
def round? (d : Decimal) (digit : Nat) : Option Decimal :=
  if digit < 5 then some d
  else if h : d.mantissa + 1 < coefficientBound then
    some (ofDigits (d.mantissa + 1) d.scale h d.scale_le)
  else if d.scale = 0 then none
  else some (ofDigits ((d.mantissa + 5) / 10) (d.scale - 1)
    (by have := d.mantissa_lt; omega) (by have := d.scale_le; omega))

/-- The value of an ASCII digit. -/
def digitValue (c : Char) : Nat := c.toNat - '0'.toNat

/-- Continue reading after the digits `d`. The flag tells whether the point has been passed. -/
def readFrom (d : Decimal) (fractional : Bool) : List Char → Option Decimal
  | [] => some d
  | c :: rest =>
      if c = '.' then readFrom d true rest
      else
        match d.push? fractional (digitValue c) with
        | some more => readFrom more fractional rest
        | none => if fractional then d.round? (digitValue c) else none

/-- Read ASCII digits with at most one point among them. -/
def ofDigitChars? (cs : List Char) : Option Decimal := readFrom zero false cs

/-- Read a number with an optional minus sign. -/
def ofText? (text : String) : Option Decimal :=
  match text.toList with
  | '-' :: rest => (ofDigitChars? rest).map neg
  | cs => ofDigitChars? cs

/-- The digits of `n`, filled up with zeros on the left to at least `width` places. -/
def paddedDigits (width n : Nat) : List Char :=
  let digits := Nat.toDigits 10 n
  List.replicate (width - digits.length) '0' ++ digits

/-- The characters of a number without its sign: no exponent, one digit before the point at least,
and as many after it as the scale says. -/
def digitChars (d : Decimal) : List Char :=
  if d.scale = 0 then Nat.toDigits 10 d.mantissa
  else
    Nat.toDigits 10 (d.mantissa / Nat.pow 10 d.scale)
      ++ '.' :: paddedDigits d.scale (d.mantissa % Nat.pow 10 d.scale)

/-- The written form of a number. -/
def text (d : Decimal) : String :=
  String.ofList (if d.negative then '-' :: d.digitChars else d.digitChars)

end Decimal

end RecordFlow
