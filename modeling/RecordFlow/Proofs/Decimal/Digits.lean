/-
# Reading the digits of a number

A number that is not below zero is read back from its written digits, scale included. Reading goes
digit by digit and gives up at the first one that does not fit; since the coefficient never shrinks
on the way, it fits at every digit when it fits at the last.
-/

import RecordFlow.Decimal

namespace RecordFlow.Decimal

/-- Two numbers with the same sign, digits and scale are the same. -/
theorem eq_of_parts {d e : Decimal} (hnegative : d.negative = e.negative)
    (hmantissa : d.mantissa = e.mantissa) (hscale : d.scale = e.scale) : d = e := by
  cases d
  cases e
  cases hnegative
  cases hmantissa
  cases hscale
  rfl

theorem ne_point_of_isDigit {c : Char} (h : c.isDigit) : c ≠ '.' := by
  rintro rfl
  exact nomatch h

theorem readFrom_nil (d : Decimal) (fractional : Bool) : readFrom d fractional [] = some d := rfl

theorem readFrom_point (d : Decimal) (fractional : Bool) (rest : List Char) :
    readFrom d fractional ('.' :: rest) = readFrom d true rest := rfl

theorem readFrom_of_push? {d more : Decimal} {fractional : Bool} {c : Char} (hpoint : c ≠ '.')
    (hpush : d.push? fractional (digitValue c) = some more) (rest : List Char) :
    readFrom d fractional (c :: rest) = readFrom more fractional rest := by
  change (if c = '.' then _ else _) = _
  rw [if_neg hpoint]
  simp only [hpush]

theorem readFrom_of_push?_none {d : Decimal} {fractional : Bool} {c : Char} (hpoint : c ≠ '.')
    (hpush : d.push? fractional (digitValue c) = none) (rest : List Char) :
    readFrom d fractional (c :: rest) = if fractional then d.round? (digitValue c) else none := by
  change (if c = '.' then _ else _) = _
  rw [if_neg hpoint]
  simp only [hpush]

theorem le_ofDigitChars (cs : List Char) (mantissa : Nat) :
    mantissa ≤ Nat.ofDigitChars 10 cs mantissa := by
  induction cs generalizing mantissa with
  | nil => exact Nat.le_refl mantissa
  | cons c cs ih =>
      rw [Nat.ofDigitChars_cons]
      have hstep : mantissa ≤ 10 * mantissa + (c.toNat - '0'.toNat) := by omega
      exact Nat.le_trans hstep (ih _)

/-- The number of places behind the point that `count` more digits take. -/
def placesFor (fractional : Bool) (count : Nat) : Nat := if fractional then count else 0

/-- A digit that fits is appended. -/
theorem push?_of_fits {d : Decimal} {fractional : Bool} {digit : Nat}
    (hmantissa : d.mantissa * 10 + digit < coefficientBound)
    (hscale : d.scale + placesFor fractional 1 ≤ 28) :
    d.push? fractional digit = some (ofDigits _ _ hmantissa hscale) := by
  rw [push?, dif_pos hmantissa]
  cases fractional with
  | false => rfl
  | true => rw [if_pos rfl, dif_pos (show d.scale < 28 from hscale)]; rfl

/-- A run of digits whose result is a number is read to its end. -/
theorem readFrom_digits {cs : List Char} (hdigits : ∀ c ∈ cs, c.isDigit) (fractional : Bool)
    (rest : List Char) {d e : Decimal} (hd : d.negative = false) (he : e.negative = false)
    (hmantissa : e.mantissa = Nat.ofDigitChars 10 cs d.mantissa)
    (hscale : e.scale = d.scale + placesFor fractional cs.length) :
    readFrom d fractional (cs ++ rest) = readFrom e fractional rest := by
  induction cs generalizing d with
  | nil =>
      have hplaces : placesFor fractional 0 = 0 := by cases fractional <;> rfl
      rw [List.length_nil, hplaces] at hscale
      rw [eq_of_parts (hd.trans he.symm) hmantissa.symm hscale.symm, List.nil_append]
  | cons c cs ih =>
      obtain ⟨hc, hcs⟩ := List.forall_mem_cons.mp hdigits
      have hpoint : c ≠ '.' := ne_point_of_isDigit hc
      rw [Nat.ofDigitChars_cons, Nat.mul_comm] at hmantissa
      have hfits : d.mantissa * 10 + digitValue c < coefficientBound := by
        have hle := le_ofDigitChars cs (d.mantissa * 10 + digitValue c)
        have hlt := e.mantissa_lt
        rw [hmantissa] at hlt
        exact Nat.lt_of_le_of_lt hle hlt
      have hplaces : e.scale =
          d.scale + placesFor fractional 1 + placesFor fractional cs.length := by
        rw [hscale, List.length_cons]
        cases fractional <;> simp only [placesFor] <;> grind
      have hroom : d.scale + placesFor fractional 1 ≤ 28 := by
        have hle := e.scale_le
        omega
      rw [List.cons_append, readFrom_of_push? hpoint (push?_of_fits hfits hroom)]
      exact ih hcs rfl hmantissa hplaces

variable {width n : Nat}

theorem isDigit_of_mem_toDigits {c : Char} (h : c ∈ Nat.toDigits 10 n) : c.isDigit :=
  Nat.isDigit_of_mem_toDigits (by decide) (by decide) h

theorem isDigit_of_mem_paddedDigits {c : Char} (h : c ∈ paddedDigits width n) : c.isDigit := by
  rcases List.mem_append.mp h with hzero | hdigit
  · rw [List.eq_of_mem_replicate hzero]
    rfl
  · exact isDigit_of_mem_toDigits hdigit

theorem length_paddedDigits (hwidth : 0 < width) (hn : n < Nat.pow 10 width) :
    (paddedDigits width n).length = width := by
  have hlength := (Nat.length_toDigits_le_iff (by decide) hwidth).mpr hn
  simp only [paddedDigits, List.length_append, List.length_replicate]
  omega

theorem ofDigitChars_paddedDigits (hwidth : 0 < width) (hn : n < Nat.pow 10 width) (m : Nat) :
    Nat.ofDigitChars 10 (paddedDigits width n) m = Nat.pow 10 width * m + n := by
  have hzeros : Nat.ofDigitChars 10 (paddedDigits width n) 0 = n := by
    rw [paddedDigits, Nat.ofDigitChars_append, Nat.ofDigitChars_replicate_zero, Nat.mul_zero,
      Nat.ofDigitChars_ten_toDigits]
  rw [Nat.ofDigitChars_eq_ofDigitChars_zero, hzeros, length_paddedDigits hwidth hn]
  rfl

/-- A number that is not below zero is read back from its digits. -/
theorem ofDigitChars?_digitChars {d : Decimal} (h : d.negative = false) :
    ofDigitChars? d.digitChars = some d := by
  rw [ofDigitChars?, digitChars]
  by_cases hscale : d.scale = 0
  · have hvalue : d.mantissa = Nat.ofDigitChars 10 (Nat.toDigits 10 d.mantissa) zero.mantissa :=
      Nat.ofDigitChars_ten_toDigits.symm
    have hread : readFrom zero false (Nat.toDigits 10 d.mantissa ++ []) = readFrom d false [] :=
      readFrom_digits (fun c hc => isDigit_of_mem_toDigits hc) false [] rfl h hvalue hscale
    rw [List.append_nil] at hread
    rw [if_pos hscale, hread, readFrom_nil]
  · have hwidth : 0 < d.scale := Nat.pos_of_ne_zero hscale
    have hpow : 0 < Nat.pow 10 d.scale := Nat.pow_pos (by decide)
    have hlt : d.mantissa / Nat.pow 10 d.scale < coefficientBound :=
      Nat.lt_of_le_of_lt (Nat.div_le_self _ _) d.mantissa_lt
    generalize hwhole : ofDigits (d.mantissa / Nat.pow 10 d.scale) 0 hlt (by decide) = whole
    generalize hfraction : d.mantissa % Nat.pow 10 d.scale = fraction
    have hbelow : fraction < Nat.pow 10 d.scale := hfraction ▸ Nat.mod_lt d.mantissa hpow
    have hquotient : whole.mantissa = d.mantissa / Nat.pow 10 d.scale := by
      rw [← hwhole]
      rfl
    have hpositive : whole.negative = false := by
      rw [← hwhole]
      rfl
    have hpoint : whole.scale = 0 := by
      rw [← hwhole]
      rfl
    have hmantissa : d.mantissa =
        Nat.ofDigitChars 10 (paddedDigits d.scale fraction) whole.mantissa := by
      rw [ofDigitChars_paddedDigits hwidth hbelow, hquotient, ← hfraction]
      exact (Nat.div_add_mod _ _).symm
    have hplaces : d.scale =
        whole.scale + placesFor true (paddedDigits d.scale fraction).length := by
      rw [length_paddedDigits hwidth hbelow, hpoint, Nat.zero_add]
      rfl
    have hbefore : readFrom zero false
        (Nat.toDigits 10 whole.mantissa ++ '.' :: paddedDigits d.scale fraction) =
          readFrom whole false ('.' :: paddedDigits d.scale fraction) :=
      readFrom_digits (fun c hc => isDigit_of_mem_toDigits hc) false _ rfl hpositive
        Nat.ofDigitChars_ten_toDigits.symm hpoint
    have hbehind : readFrom whole true (paddedDigits d.scale fraction ++ []) = readFrom d true [] :=
      readFrom_digits (fun c hc => isDigit_of_mem_paddedDigits hc) true [] hpositive h hmantissa
        hplaces
    rw [List.append_nil] at hbehind
    rw [if_neg hscale, ← hquotient, hbefore, readFrom_point, hbehind, readFrom_nil]

end RecordFlow.Decimal
