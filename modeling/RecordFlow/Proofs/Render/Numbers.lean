/-
# Numbers from text to text

A number of a text is kept as a decimal and printed from there. Where the decimals have the number
of the text, the printed digits stand for the same number. Where they do not, the text is refused
only if the number is too large. Otherwise the number is rounded, and what is printed is another
number, near the one of the text.
-/

import RecordFlow.Proofs.Decimal.Exact
import RecordFlow.Proofs.Token.Diagnosis
import RecordFlow.Proofs.Token.Order
import RecordFlow.Render.Basic
import RecordFlow.Script.Production.Statement

namespace RecordFlow

/-- Only the beginning of a text is the place behind nothing. -/
theorem Position.eq_nil_of_behind {cs : List Char} (h : behind cs = start) : cs = [] := by
  rcases List.eq_nil_or_concat cs with rfl | ⟨front, c, rfl⟩
  · rfl
  · rw [List.concat_eq_append, behind_concat, next, behind, start] at h
    split at h <;> simp at h

namespace Scan

/-- What a number of a text is read as. -/
theorem IsNumber.reads {cs : List Char} (h : IsNumber cs) :
    Decimal.Reads (numeralValue cs) (Decimal.ofDigitChars? cs) := by
  rcases h with hdigits | ⟨whole, fraction, rfl, hwhole, hfraction⟩
  · exact Decimal.reads_digits hdigits.2
  · exact Decimal.reads_point hwhole.2 hfraction.2

/-- The lexeme of a number goes as far as it can, and its token has the decimal that is read. -/
theorem Spells.number {lexeme after : List Char} {found : Classified} (h : Spells lexeme found)
    (hkind : found.kind = .integer ∨ found.kind = .decimal) (hends : Ends found.kind after) :
    Longest IsNumber lexeme (lexeme ++ after) ∧
      ∃ d, found.value = some (.number d) ∧ Decimal.ofDigitChars? lexeme = some d := by
  cases h with
  | integer hdigits hvalue => exact ⟨longest_integer hdigits hends, _, rfl, hvalue⟩
  | decimal hwhole hfraction hvalue =>
      exact ⟨longest_decimal hwhole hfraction hends, _, rfl, hvalue⟩
  | _ => simp at hkind

end Scan

namespace Decimal

variable {d : Decimal}

theorem isNumber_digitChars (d : Decimal) : Scan.IsNumber d.digitChars := by
  have hdigits : ∀ n, Scan.IsDigits (Nat.toDigits 10 n) := fun n =>
    ⟨Nat.toDigits_ne_nil, fun c hc => isDigit_of_mem_toDigits hc⟩
  unfold digitChars
  split
  · exact .inl (hdigits _)
  · next hscale =>
      refine .inr ⟨_, _, rfl, hdigits _, ?_, fun c hc => isDigit_of_mem_paddedDigits hc⟩
      exact List.append_ne_nil_of_right_ne_nil _ Nat.toDigits_ne_nil

theorem toList_text (h : d.negative = false) : d.text.toList = d.digitChars := by
  simp [text, h]

end Decimal

/-- Numbers are printed exactly if decimals have them. Each number of a text that is scanned is
printed as a number, which stands for the same rational number as the digits of the text if and only
if some decimal does. In any case the two are no more than half a unit of the last printed place
apart. A text is refused for a number only if the number lies at least half a unit above the
greatest decimal, so that no decimal has its value. -/
theorem printed_number_eq_iff (source : String) :
    (∀ ts, tokenize source = .ok ts → ∀ t ∈ ts, t.kind = .integer ∨ t.kind = .decimal →
      ∃ front lexeme rest d,
        source.toList = front ++ (lexeme ++ rest) ∧ t.position = .behind front ∧
        Scan.Longest Scan.IsNumber lexeme (lexeme ++ rest) ∧ t.value = some (.number d) ∧
        let printed := Render.value (.number (.ofToken t))
        Render.fieldValue (.number (.ofToken t)) = printed ∧ Scan.IsNumber printed.toList ∧
        (numeralValue printed.toList = numeralValue lexeme ↔
          ∃ e : Decimal, e.value = numeralValue lexeme) ∧
        |numeralValue printed.toList - numeralValue lexeme| ≤ 1 / 2 / 10 ^ d.scale ∧
        numeralValue lexeme < coefficientBound - 1 / 2) ∧
    ∀ digits position, tokenize source = .error ⟨.invalidNumber digits, position⟩ →
      ∃ front rest,
        source.toList = front ++ (digits.toList ++ rest) ∧ position = .behind front ∧
        Scan.Longest Scan.IsNumber digits.toList (digits.toList ++ rest) ∧
        coefficientBound - 1 / 2 ≤ numeralValue digits.toList ∧
        ∀ e : Decimal, e.value ≠ numeralValue digits.toList := by
  constructor
  · intro ts hts t ht hkind
    obtain ⟨front, rest, hsource, hposition, hend | ⟨lexeme, after, rfl, hspells, hends⟩⟩ :=
      standsIn_of_tokenize hts t ht
    · simp [hend.1] at hkind
    · obtain ⟨hlongest, d, hvalue, hread⟩ := hspells.number hkind hends
      have hrounds : d.Rounds (numeralValue lexeme) := by
        have hreads := hlongest.holds.reads
        rw [hread] at hreads
        exact hreads
      have hprinted : (Render.value (.number (.ofToken t))).toList = d.digitChars := by
        have hliteral : NumberLiteral.ofToken t = ⟨t, d⟩ := by
          simp [NumberLiteral.ofToken, Token.number?, show t.value = _ from hvalue]
        rw [hliteral]
        exact Decimal.toList_text hrounds.negative
      refine ⟨front, lexeme, after, d, hsource, hposition, hlongest, hvalue, rfl, ?_, ?_, ?_,
        hrounds.lt⟩
      · rw [hprinted]
        exact d.isNumber_digitChars
      · rw [hprinted, Decimal.numeralValue_digitChars hrounds.negative]
        exact ⟨fun h => ⟨d, h⟩, fun ⟨e, he⟩ => hrounds.exact e he⟩
      · rw [hprinted, Decimal.numeralValue_digitChars hrounds.negative]
        exact hrounds.near
  · intro digits position herror
    obtain ⟨front, rest, hsource, hposition, hoffends, -⟩ := standsIn_of_tokenize_error herror
    obtain ⟨hlongest, hread⟩ := Scan.describes_of_offends hoffends
    obtain ⟨behind, rfl⟩ := hlongest.begins
    have hlarge : coefficientBound - 1 / 2 ≤ numeralValue digits.toList := by
      have hreads := hlongest.holds.reads
      rw [hread] at hreads
      exact hreads
    refine ⟨front, behind, hsource, hposition, hlongest, hlarge, fun e he => ?_⟩
    linarith [e.value_le]

/-- Zeros in front are not printed and change nothing, and the first whole number that no decimal
has is refused. -/
theorem printed_number_eq_iff_zeros_in_front :
    let source := "007.50"
    let t : Token :=
      ⟨.decimal, some (.number (.ofDigits 750 2 (by decide) (by decide))), ⟨1, 1⟩⟩
    let large := "79228162514264337593543950336"
    tokenize source = .ok [t, .plain .endOfFile ⟨1, 7⟩] ∧
      Render.value (.number (.ofToken t)) = "7.50" ∧
      numeralValue "7.50".toList = numeralValue source.toList ∧
      tokenize large = .error ⟨.invalidNumber large, ⟨1, 1⟩⟩ ∧
      ∀ e : Decimal, e.value ≠ numeralValue large.toList := by
  intro source t large
  have htokens : tokenize source = .ok [t, .plain .endOfFile ⟨1, 7⟩] :=
    tokenize_eq_ok_iff.mpr (by decide +kernel)
  have hprinted : Render.value (.number (.ofToken t)) = "7.50" := by decide +kernel
  have hlarge : tokenize large = .error ⟨.invalidNumber large, ⟨1, 1⟩⟩ :=
    tokenize_eq_error_iff.mpr (by decide +kernel)
  obtain ⟨front, lexeme, rest, -, hsource, hposition, hlongest, -, -, -, hexact, -, -⟩ :=
    (printed_number_eq_iff source).1 _ htokens t List.mem_cons_self (.inr rfl)
  obtain rfl : front = [] := Position.eq_nil_of_behind hposition.symm
  have hnumber : Scan.IsNumber source.toList :=
    .inr ⟨"007".toList, "50".toList, by decide, by simp [Scan.IsDigits], by simp [Scan.IsDigits]⟩
  have hlexeme : lexeme = source.toList := by
    refine (hsource ▸ hlongest.begins).eq_of_length_le ?_
    exact hlongest.longest _ (hsource ▸ List.prefix_rfl) hnumber
  rw [hprinted, hlexeme] at hexact
  refine ⟨htokens, hprinted, hexact.mpr ⟨.ofDigits 750 2 (by decide) (by decide), ?_⟩, hlarge, ?_⟩
  · decide +kernel
  · obtain ⟨_, _, -, -, -, -, hnone⟩ := (printed_number_eq_iff large).2 large ⟨1, 1⟩ hlarge
    exact hnone

/-- A number with more places than a decimal has is not refused, and it is not printed exactly. -/
theorem printed_number_rounded_to_zero :
    let source := "0.00000000000000000000000000001"
    ∃ ts t, tokenize source = .ok ts ∧ t ∈ ts ∧ t.kind = .decimal ∧
      Render.value (.number (.ofToken t)) = "0.0000000000000000000000000000" ∧
      numeralValue (Render.value (.number (.ofToken t))).toList ≠ numeralValue source.toList := by
  let zero : Token :=
    ⟨.decimal, some (.number (.ofDigits 0 28 (by decide) (by decide))), ⟨1, 1⟩⟩
  refine ⟨[zero, .plain .endOfFile ⟨1, 32⟩], zero, ?_, List.mem_cons_self, rfl, ?_, ?_⟩
  all_goals decide +kernel

end RecordFlow
