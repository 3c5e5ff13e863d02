/-
# Which numbers are kept exactly

Digits with a point among them stand for a rational number, and so does a decimal. Reading goes on
while the digits fit. As long as it does, the digits that were read and the digits that are left
stand for the number together, and so the number is kept exactly if no digit is left out. Where
reading stops before the end, the number is rounded at the first digit that does not fit, by half a
unit of its last place at most. It is still kept exactly if some decimal has its value at all: such
a decimal has no more places than were read, for otherwise its digits would not fit either, and so
only zeros are left out.

A number is refused if it lies at least half a unit above the greatest decimal.
-/

import Mathlib.Algebra.Order.Field.Rat
import Mathlib.Data.List.TakeWhile
import Mathlib.Tactic.FieldSimp
import Mathlib.Tactic.Linarith
import Mathlib.Tactic.Positivity
import Mathlib.Tactic.Ring
import RecordFlow.Proofs.Decimal.Digits

namespace RecordFlow

/-- The number that digits behind a point stand for. -/
def fractionValue (cs : List Char) : ℚ := Nat.ofDigitChars 10 cs 0 / 10 ^ cs.length

/-- The number that digits stand for, with a point among them or without. -/
def numeralValue (cs : List Char) : ℚ :=
  Nat.ofDigitChars 10 (cs.takeWhile (· != '.')) 0 +
    fractionValue ((cs.dropWhile (· != '.')).drop 1)

/-- The number that a decimal stands for. -/
def Decimal.value (d : Decimal) : ℚ :=
  (if d.negative then -1 else 1) * d.mantissa / 10 ^ d.scale

section Digits

variable {c : Char} {cs : List Char}

@[simp]
theorem fractionValue_nil : fractionValue [] = 0 := by simp [fractionValue]

theorem fractionValue_cons (c : Char) (cs : List Char) :
    fractionValue (c :: cs) = (Decimal.digitValue c + fractionValue cs) / 10 := by
  have hpow : (10 : ℚ) ^ cs.length ≠ 0 := by positivity
  unfold fractionValue
  rw [Nat.ofDigitChars_cons, Nat.ofDigitChars_eq_ofDigitChars_zero, List.length_cons, pow_succ]
  push_cast
  rw [Decimal.digitValue]
  field_simp
  simp

theorem digitValue_le_nine (h : c.isDigit) : Decimal.digitValue c ≤ 9 := by
  simp only [Char.isDigit, Bool.and_eq_true, decide_eq_true_eq] at h
  have hnine : c.toNat ≤ 57 := h.2
  change c.toNat - 48 ≤ 9
  omega

theorem fractionValue_nonneg (cs : List Char) : 0 ≤ fractionValue cs := by
  unfold fractionValue
  positivity

theorem fractionValue_lt_one (h : ∀ c ∈ cs, c.isDigit) : fractionValue cs < 1 := by
  induction cs with
  | nil => simp
  | cons c cs ih =>
      obtain ⟨hc, hcs⟩ := List.forall_mem_cons.mp h
      have hdigit : (Decimal.digitValue c : ℚ) ≤ 9 := by exact_mod_cast digitValue_le_nine hc
      rw [fractionValue_cons]
      linarith [ih hcs]

theorem numeralValue_point {whole : List Char} (hwhole : ∀ c ∈ whole, c.isDigit)
    (fraction : List Char) :
    numeralValue (whole ++ '.' :: fraction) =
      Nat.ofDigitChars 10 whole 0 + fractionValue fraction := by
  have hpass : ∀ c ∈ whole, c != '.' := fun c hc =>
    bne_iff_ne.mpr (Decimal.ne_point_of_isDigit (hwhole c hc))
  unfold numeralValue
  rw [List.takeWhile_append_of_pos hpass, List.dropWhile_append_of_pos hpass]
  simp

theorem numeralValue_digits (h : ∀ c ∈ cs, c.isDigit) :
    numeralValue cs = Nat.ofDigitChars 10 cs 0 := by
  have hpass : ∀ c ∈ cs, c != '.' := fun c hc =>
    bne_iff_ne.mpr (Decimal.ne_point_of_isDigit (h c hc))
  unfold numeralValue
  rw [List.takeWhile_eq_self_iff.mpr hpass, List.dropWhile_eq_nil_iff.mpr hpass]
  simp

end Digits

namespace Decimal

variable {d e : Decimal} {c : Char} {cs : List Char}

theorem value_of_not_negative (h : d.negative = false) : d.value = d.mantissa / 10 ^ d.scale := by
  simp [value, h]

/-- A decimal that is no number below zero has no sign. -/
theorem not_negative_of_value (h : 0 ≤ d.value) : d.negative = false := by
  by_contra hsign
  have hnegative : d.negative = true := by simpa using hsign
  have hmantissa : (0 : ℚ) < d.mantissa := by
    exact_mod_cast Nat.pos_of_ne_zero (d.mantissa_ne_zero hnegative)
  have hvalue : d.value = -(d.mantissa / 10 ^ d.scale) := by
    rw [value, if_pos hnegative]
    ring
  have hpos : (0 : ℚ) < d.mantissa / 10 ^ d.scale := by positivity
  linarith

theorem mantissa_le (d : Decimal) : (d.mantissa : ℚ) ≤ coefficientBound - 1 := by
  have hlt : (d.mantissa : ℚ) + 1 ≤ coefficientBound := by exact_mod_cast d.mantissa_lt
  linarith

theorem value_le (d : Decimal) : d.value ≤ coefficientBound - 1 := by
  have hpow : (1 : ℚ) ≤ 10 ^ d.scale := one_le_pow₀ (by norm_num)
  have hmantissa : (0 : ℚ) ≤ d.mantissa := Nat.cast_nonneg _
  rcases le_or_gt 0 d.value with hpos | hneg
  · rw [value_of_not_negative (not_negative_of_value hpos)]
    exact (div_le_self hmantissa hpow).trans d.mantissa_le
  · linarith [d.mantissa_le]

/-! ## Rounding

A digit that does not fit decides the rounding, and what stands behind it is less than one unit of
the place in question. No decimal with more places can have the number, since it would need the
digit that did not fit. -/

/-- The number that digits behind the point complete what was read to. -/
def continued (d : Decimal) (cs : List Char) : ℚ := (d.mantissa + fractionValue cs) / 10 ^ d.scale

/-- A decimal for a number: no further from it than half a unit of the last place, and not at all if
any decimal has its value. The number is not beyond the decimals. -/
structure Rounds (d : Decimal) (v : ℚ) : Prop where
  negative : d.negative = false
  near : |d.value - v| ≤ 1 / 2 / 10 ^ d.scale
  exact : ∀ e : Decimal, e.value = v → d.value = v
  lt : v < coefficientBound - 1 / 2

/-- What a number may be read as: a decimal for it, or nothing if it lies half a unit or more above
the greatest decimal. -/
def Reads (v : ℚ) : Option Decimal → Prop
  | some d => d.Rounds v
  | none => coefficientBound - 1 / 2 ≤ v

theorem rounds_value (h : d.negative = false) : d.Rounds d.value where
  negative := h
  near := by
    rw [sub_self, abs_zero]
    positivity
  exact _ _ := rfl
  lt := by linarith [d.value_le]

/-- A digit that fits changes nothing about the number. -/
theorem continued_of_push? {more : Decimal} (h : d.push? true (digitValue c) = some more)
    (cs : List Char) :
    more.negative = false ∧ more.continued cs = d.continued (c :: cs) := by
  unfold push? at h
  split at h
  · rw [if_pos rfl] at h
    split at h
    · cases h
      refine ⟨rfl, ?_⟩
      simp only [continued, ofDigits, fractionValue_cons, pow_succ]
      push_cast
      field_simp
      ring
    · exact nomatch h
  · exact nomatch h

/-- A digit does not fit if there is no room for its place or for its digits. -/
theorem of_push?_eq_none {digit : Nat} (h : d.push? true digit = none) :
    28 ≤ d.scale ∨ coefficientBound ≤ d.mantissa * 10 + digit := by
  unfold push? at h
  split at h
  · rw [if_pos rfl] at h
    split at h
    · exact nomatch h
    · next hscale => exact .inl (Nat.le_of_not_lt hscale)
  · next hmantissa => exact .inr (Nat.le_of_not_lt hmantissa)

/-- Where a digit does not fit, nothing but zeros is left of a number that some decimal has for its
value. -/
theorem fractionValue_eq_zero (hcs : ∀ x ∈ c :: cs, x.isDigit)
    (hstop : d.push? true (digitValue c) = none) (he : e.value = d.continued (c :: cs)) :
    fractionValue (c :: cs) = 0 := by
  have hnonneg := fractionValue_nonneg (c :: cs)
  have hlt := fractionValue_lt_one hcs
  have hpos : 0 ≤ e.value := by
    rw [he, continued]
    positivity
  rw [value_of_not_negative (not_negative_of_value hpos), continued] at he
  rcases Nat.lt_or_ge d.scale e.scale with hplaces | hplaces
  · -- The other decimal has more places, so it has the digit that does not fit as well.
    obtain ⟨k, hk⟩ := Nat.exists_eq_add_of_lt hplaces
    have hfull : coefficientBound ≤ d.mantissa * 10 + digitValue c :=
      (of_push?_eq_none hstop).resolve_left (by have := e.scale_le; omega)
    have hfull : (coefficientBound : ℚ) ≤ d.mantissa * 10 + digitValue c := by exact_mod_cast hfull
    have hdigits : (e.mantissa : ℚ) =
        (d.mantissa * 10 + digitValue c + fractionValue cs) * 10 ^ k := by
      rw [hk, fractionValue_cons, pow_succ, pow_add] at he
      field_simp at he
      rw [he]
      ring
    have hpow : (1 : ℚ) ≤ 10 ^ k := one_le_pow₀ (by norm_num)
    have hrest := fractionValue_nonneg cs
    have hlarge : (coefficientBound : ℚ) ≤ e.mantissa := by
      rw [hdigits]
      nlinarith
    linarith [e.mantissa_le]
  · -- The other decimal has no more places, so the digits that were read are all of its digits.
    obtain ⟨k, hk⟩ := Nat.exists_eq_add_of_le hplaces
    have hdigits : (e.mantissa : ℚ) * 10 ^ k = d.mantissa + fractionValue (c :: cs) := by
      rw [hk, pow_add] at he
      field_simp at he
      exact he
    have hle : d.mantissa ≤ e.mantissa * 10 ^ k := by
      have hle : (d.mantissa : ℚ) ≤ e.mantissa * 10 ^ k := by linarith
      exact_mod_cast hle
    have hge : e.mantissa * 10 ^ k < d.mantissa + 1 := by
      have hge : (e.mantissa : ℚ) * 10 ^ k < d.mantissa + 1 := by linarith
      exact_mod_cast hge
    have heq : e.mantissa * 10 ^ k = d.mantissa := by omega
    have heq : (e.mantissa : ℚ) * 10 ^ k = d.mantissa := by exact_mod_cast heq
    linarith

theorem abs_div_sub_div_le {a b unit : ℚ} (hunit : 0 < unit) (h : |a - b| ≤ 1 / 2) :
    |a / unit - b / unit| ≤ 1 / 2 / unit := by
  rw [← sub_div, abs_div, abs_of_pos hunit]
  gcongr

theorem continued_le (d : Decimal) (cs : List Char) :
    d.continued cs ≤ d.mantissa + fractionValue cs := by
  have hpow : (1 : ℚ) ≤ 10 ^ d.scale := one_le_pow₀ (by norm_num)
  have hnonneg := fractionValue_nonneg cs
  exact div_le_self (by positivity) hpow

/-- A number is rounded down, or up, or up with one place given up. -/
theorem of_round?_eq_some {digit : Nat} (h : d.round? digit = some e) :
    digit < 5 ∧ e = d ∨
      5 ≤ digit ∧ e.negative = false ∧
        (e.mantissa = d.mantissa + 1 ∧ e.scale = d.scale ∨
          e.mantissa * 10 = d.mantissa + 5 ∧ e.scale + 1 = d.scale) := by
  unfold round? at h
  split at h
  · next hlow =>
      cases h
      exact .inl ⟨hlow, rfl⟩
  · next hhigh =>
      refine .inr ⟨Nat.le_of_not_lt hhigh, ?_⟩
      split at h
      · cases h
        exact ⟨rfl, .inl ⟨rfl, rfl⟩⟩
      · next hfull =>
          split at h
          · exact nomatch h
          · next hscale =>
              cases h
              have hlt := d.mantissa_lt
              have hcarry : (coefficientBound + 4) % 10 = 0 := by decide
              refine ⟨rfl, .inr ⟨?_, ?_⟩⟩
              · change (d.mantissa + 5) / 10 * 10 = d.mantissa + 5
                omega
              · change d.scale - 1 + 1 = d.scale
                omega

/-- Only the greatest number without places cannot be rounded up. -/
theorem of_round?_eq_none {digit : Nat} (h : d.round? digit = none) :
    5 ≤ digit ∧ d.mantissa + 1 = coefficientBound ∧ d.scale = 0 := by
  unfold round? at h
  split at h
  · exact nomatch h
  · next hhigh =>
      split at h
      · exact nomatch h
      · next hfull =>
          split at h
          · next hscale =>
              have hlt := d.mantissa_lt
              exact ⟨Nat.le_of_not_lt hhigh, by omega, hscale⟩
          · exact nomatch h

theorem half_le_fractionValue (h : 5 ≤ digitValue c) (cs : List Char) :
    1 / 2 ≤ fractionValue (c :: cs) := by
  have hdigit : (5 : ℚ) ≤ digitValue c := by exact_mod_cast h
  rw [fractionValue_cons]
  linarith [fractionValue_nonneg cs]

theorem fractionValue_lt_half (h : digitValue c < 5) (hcs : ∀ x ∈ cs, x.isDigit) :
    fractionValue (c :: cs) < 1 / 2 := by
  have hdigit : (digitValue c : ℚ) ≤ 4 := by exact_mod_cast Nat.le_of_lt_succ h
  rw [fractionValue_cons]
  linarith [fractionValue_lt_one hcs]

/-- Rounding at the first digit that does not fit. -/
theorem rounds_of_round? (hd : d.negative = false) (hcs : ∀ x ∈ c :: cs, x.isDigit)
    (hstop : d.push? true (digitValue c) = none) (h : d.round? (digitValue c) = some e) :
    e.Rounds (d.continued (c :: cs)) := by
  have hzero : ∀ other : Decimal, other.value = d.continued (c :: cs) →
      fractionValue (c :: cs) = 0 := fun _ => fractionValue_eq_zero hcs hstop
  have hnonneg := fractionValue_nonneg (c :: cs)
  have hlt := fractionValue_lt_one hcs
  have hle := d.continued_le (c :: cs)
  have hmantissa := d.mantissa_le
  rcases of_round?_eq_some h with ⟨hlow, rfl⟩ | ⟨hhigh, he, hup⟩
  · have hhalf := fractionValue_lt_half hlow (List.forall_mem_cons.mp hcs).2
    refine ⟨hd, ?_, fun other hother => ?_, by linarith⟩
    · rw [value_of_not_negative hd]
      exact abs_div_sub_div_le (by positivity) (abs_le.mpr ⟨by linarith, by linarith⟩)
    · rw [value_of_not_negative hd, continued, hzero other hother, add_zero]
  · have hhalf := half_le_fractionValue hhigh cs
    have hexact : ∀ other : Decimal, other.value = d.continued (c :: cs) →
        e.value = d.continued (c :: cs) := fun other hother => by linarith [hzero other hother]
    rcases hup with ⟨hup, hscale⟩ | ⟨hup, hscale⟩
    · have hup : (e.mantissa : ℚ) = d.mantissa + 1 := by exact_mod_cast hup
      refine ⟨he, ?_, hexact, by linarith [e.mantissa_le]⟩
      rw [value_of_not_negative he, hup, hscale]
      exact abs_div_sub_div_le (by positivity) (abs_le.mpr ⟨by linarith, by linarith⟩)
    · have hup : (e.mantissa : ℚ) * 10 = d.mantissa + 5 := by exact_mod_cast hup
      have hplaces : d.continued (c :: cs) =
          (d.mantissa + fractionValue (c :: cs)) / 10 / 10 ^ e.scale := by
        rw [continued, ← hscale, pow_succ]
        field_simp
      refine ⟨he, ?_, hexact, ?_⟩
      · rw [value_of_not_negative he, hplaces]
        exact abs_div_sub_div_le (by positivity) (abs_le.mpr ⟨by linarith, by linarith⟩)
      · have hpow : (1 : ℚ) ≤ 10 ^ e.scale := one_le_pow₀ (by norm_num)
        have hle : d.continued (c :: cs) ≤ (d.mantissa + fractionValue (c :: cs)) / 10 := by
          rw [hplaces]
          exact div_le_self (by positivity) hpow
        have hbound : (10 : ℚ) ≤ coefficientBound := by
          exact_mod_cast (by decide : 10 ≤ coefficientBound)
        linarith

/-- A number that cannot be rounded is beyond the decimals. -/
theorem le_of_round?_eq_none (h : d.round? (digitValue c) = none) (cs : List Char) :
    coefficientBound - 1 / 2 ≤ d.continued (c :: cs) := by
  obtain ⟨hhigh, hfull, hscale⟩ := of_round?_eq_none h
  have hfull : (d.mantissa : ℚ) + 1 = coefficientBound := by exact_mod_cast hfull
  rw [continued, hscale, pow_zero, div_one]
  linarith [half_le_fractionValue hhigh cs]

/-! ## Reading -/

/-- What is read of the digits behind the point. -/
theorem reads_fraction (hd : d.negative = false) (hcs : ∀ x ∈ cs, x.isDigit) :
    Reads (d.continued cs) (readFrom d true cs) := by
  induction cs generalizing d with
  | nil =>
      have hvalue : d.continued [] = d.value := by
        rw [continued, fractionValue_nil, add_zero, value_of_not_negative hd]
      rw [hvalue]
      exact rounds_value hd
  | cons c cs ih =>
      obtain ⟨hc, hrest⟩ := List.forall_mem_cons.mp hcs
      have hpoint : c ≠ '.' := ne_point_of_isDigit hc
      cases hpush : d.push? true (digitValue c) with
      | some more =>
          obtain ⟨hmore, hcontinued⟩ := continued_of_push? hpush cs
          rw [readFrom_of_push? hpoint hpush, ← hcontinued]
          exact ih hmore hrest
      | none =>
          rw [readFrom_of_push?_none hpoint hpush, if_pos rfl]
          cases hround : d.round? (digitValue c) with
          | some e => exact rounds_of_round? hd hcs hpush hround
          | none => exact le_of_round?_eq_none hround cs

/-- Digits before the point are refused if they do not fit. -/
theorem readFrom_eq_none (hcs : ∀ x ∈ cs, x.isDigit)
    (h : coefficientBound ≤ Nat.ofDigitChars 10 cs d.mantissa) (rest : List Char) :
    readFrom d false (cs ++ rest) = none := by
  induction cs generalizing d with
  | nil => exact absurd h (Nat.not_le_of_lt d.mantissa_lt)
  | cons c cs ih =>
      obtain ⟨hc, hrest⟩ := List.forall_mem_cons.mp hcs
      have hpoint : c ≠ '.' := ne_point_of_isDigit hc
      cases hpush : d.push? false (digitValue c) with
      | none =>
          rw [List.cons_append, readFrom_of_push?_none hpoint hpush]
          rfl
      | some more =>
          rw [List.cons_append, readFrom_of_push? hpoint hpush]
          apply ih hrest
          have hmore : more.mantissa = d.mantissa * 10 + digitValue c := by
            unfold push? at hpush
            split at hpush
            · rw [if_neg Bool.false_ne_true] at hpush
              cases hpush
              rfl
            · exact nomatch hpush
          rw [Nat.ofDigitChars_cons, Nat.mul_comm] at h
          rw [hmore]
          exact h

/-- Digits before the point are read as a whole number, if they fit. -/
theorem ofDigitChars?_whole {whole : List Char} (hwhole : ∀ x ∈ whole, x.isDigit)
    (rest : List Char) :
    (∃ d : Decimal, d.negative = false ∧ d.scale = 0 ∧
        d.mantissa = Nat.ofDigitChars 10 whole 0 ∧
        ofDigitChars? (whole ++ rest) = readFrom d false rest) ∨
      coefficientBound ≤ Nat.ofDigitChars 10 whole 0 ∧ ofDigitChars? (whole ++ rest) = none := by
  rcases Nat.lt_or_ge (Nat.ofDigitChars 10 whole 0) coefficientBound with hlt | hge
  · refine .inl ⟨ofDigits _ 0 hlt (by decide), rfl, rfl, rfl, ?_⟩
    exact readFrom_digits hwhole false rest rfl rfl rfl rfl
  · exact .inr ⟨hge, readFrom_eq_none hwhole hge rest⟩

/-- What a number with a point is read as. -/
theorem reads_point {whole fraction : List Char} (hwhole : ∀ x ∈ whole, x.isDigit)
    (hfraction : ∀ x ∈ fraction, x.isDigit) :
    Reads (numeralValue (whole ++ '.' :: fraction)) (ofDigitChars? (whole ++ '.' :: fraction)) := by
  rw [numeralValue_point hwhole]
  rcases ofDigitChars?_whole hwhole ('.' :: fraction) with
    ⟨d, hd, hscale, hmantissa, hread⟩ | ⟨hlarge, hread⟩
  · have hvalue : d.continued fraction =
        Nat.ofDigitChars 10 whole 0 + fractionValue fraction := by
      rw [continued, hscale, hmantissa, pow_zero, div_one]
    rw [hread, readFrom_point, ← hvalue]
    exact reads_fraction hd hfraction
  · rw [hread, Reads]
    have hlarge : (coefficientBound : ℚ) ≤ Nat.ofDigitChars 10 whole 0 := by exact_mod_cast hlarge
    linarith [fractionValue_nonneg fraction]

/-- What a number without a point is read as. -/
theorem reads_digits (hcs : ∀ x ∈ cs, x.isDigit) : Reads (numeralValue cs) (ofDigitChars? cs) := by
  rw [numeralValue_digits hcs]
  have hsplit := ofDigitChars?_whole hcs []
  rw [List.append_nil] at hsplit
  rcases hsplit with ⟨d, hd, hscale, hmantissa, hread⟩ | ⟨hlarge, hread⟩
  · have hvalue : d.value = Nat.ofDigitChars 10 cs 0 := by
      rw [value_of_not_negative hd, hscale, hmantissa, pow_zero, div_one]
    rw [hread, readFrom_nil, ← hvalue]
    exact rounds_value hd
  · rw [hread, Reads]
    have hlarge : (coefficientBound : ℚ) ≤ Nat.ofDigitChars 10 cs 0 := by exact_mod_cast hlarge
    linarith

/-- The digits that are written stand for the number. -/
theorem numeralValue_digitChars (h : d.negative = false) : numeralValue d.digitChars = d.value := by
  rw [digitChars, value_of_not_negative h]
  by_cases hscale : d.scale = 0
  · rw [if_pos hscale, numeralValue_digits fun c hc => isDigit_of_mem_toDigits hc,
      Nat.ofDigitChars_ten_toDigits, hscale, pow_zero, div_one]
  · have hwidth : 0 < d.scale := Nat.pos_of_ne_zero hscale
    have hbelow : d.mantissa % Nat.pow 10 d.scale < Nat.pow 10 d.scale :=
      Nat.mod_lt d.mantissa (Nat.pow_pos (by decide))
    rw [if_neg hscale, numeralValue_point fun c hc => isDigit_of_mem_toDigits hc,
      Nat.ofDigitChars_ten_toDigits, fractionValue, length_paddedDigits hwidth hbelow,
      ofDigitChars_paddedDigits hwidth hbelow, Nat.mul_zero, Nat.zero_add]
    have hsplit : (d.mantissa : ℚ) = 10 ^ d.scale * (d.mantissa / Nat.pow 10 d.scale : Nat) +
        (d.mantissa % Nat.pow 10 d.scale : Nat) := by
      exact_mod_cast (Nat.div_add_mod d.mantissa (10 ^ d.scale)).symm
    rw [hsplit]
    field_simp

end Decimal

end RecordFlow
