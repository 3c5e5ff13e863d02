/-
# Writing tokens

A token is written as a script writes it: strings in quotes, expressions between pairs of braces,
directives with their sign, numbers with all their places. Scanning reads tokens back that are
written with trivia between them, whatever the trivia is. Names that are reserved, texts that hold
their own closer and numbers below zero cannot be written, and `Token.Writable` leaves them out.
-/

import RecordFlow.Proofs.Decimal.Digits
import RecordFlow.Proofs.Token.Partition

namespace RecordFlow

namespace Text

/-- A blank in front of a text is trimmed off. -/
theorem trim_cons_blank {c : Char} (hc : isBlank c) (cs : List Char) :
    trim (c :: cs) = trim cs := by
  rw [trim, trim, List.dropWhile_cons_of_pos hc]

/-- A blank behind a text is trimmed off. -/
theorem trim_concat_blank {c : Char} (hc : isBlank c) (cs : List Char) :
    trim (cs ++ [c]) = trim cs := by
  have hend : ∀ ds, trimEnd (ds ++ [c]) = trimEnd ds := by
    intro ds
    simp [trimEnd, hc]
  rw [trim, trim, List.dropWhile_append]
  by_cases hblank : (cs.dropWhile isBlank).isEmpty
  · rw [if_pos hblank, List.isEmpty_iff.mp hblank, List.dropWhile_cons_of_pos hc]
    rfl
  · rw [if_neg hblank, hend]

end Text

namespace Scan

/-- Every closer in a text is escaped. -/
def Guarded (closer value : List Char) : Prop :=
  ∀ before after, value = before ++ (closer ++ after) → isEscaped before

theorem guarded_iff {closer value : List Char} :
    Guarded closer value ↔
      ∀ i < value.length + 1, closer.isPrefixOf (value.drop i) → isEscaped (value.take i) := by
  constructor
  · intro h i _ hprefix
    obtain ⟨after, hafter⟩ := List.isPrefixOf_iff_prefix.mp hprefix
    exact h (value.take i) after (by rw [hafter, List.take_append_drop])
  · rintro h before after rfl
    have hdrop : (before ++ (closer ++ after)).drop before.length = closer ++ after := by simp
    have htake : (before ++ (closer ++ after)).take before.length = before := by simp
    have hescaped := h before.length (by simp only [List.length_append]; omega)
    rw [hdrop, htake] at hescaped
    exact hescaped (List.isPrefixOf_iff_prefix.mpr (List.prefix_append closer after))

instance decidableGuarded (closer value : List Char) : Decidable (Guarded closer value) :=
  decidable_of_iff _ guarded_iff.symm

/-- A closer of one character encloses the texts in which it is escaped. -/
theorem Guarded.encloses_quote {value : List Char} (h : Guarded ['"'] value)
    (hfree : isEscaped value = false) : Encloses ['"'] value := by
  refine ⟨hfree, fun before behind hvalue hne hclose => ?_⟩
  cases behind with
  | nil => exact absurd rfl hne
  | cons c behind =>
      obtain ⟨rfl, -⟩ := List.cons_prefix_cons.mp hclose
      exact h before behind hvalue

/-- Two closing braces enclose a text in which they are escaped, when blanks stand at its ends. -/
theorem Guarded.encloses_braces {value : List Char} (h : Guarded ['}', '}'] value) :
    Encloses ['}', '}'] (' ' :: (value ++ [' '])) := by
  constructor
  · rw [← List.cons_append, isEscaped_concat]
    rfl
  · intro before behind hbody hne hclose
    obtain ⟨front, last, rfl⟩ := (List.eq_nil_or_concat behind).resolve_left hne
    rw [List.concat_eq_append, ← List.append_assoc, ← List.cons_append] at hbody
    obtain ⟨hvalue, hlast⟩ := List.append_inj' hbody rfl
    obtain rfl : ' ' = last := (List.cons.inj hlast).1
    rw [List.concat_eq_append] at hclose
    obtain ⟨after, rfl⟩ : ∃ after, front = '}' :: '}' :: after := by
      rcases front with _ | ⟨c, _ | ⟨d, after⟩⟩
      · exact absurd (List.cons_prefix_cons.mp hclose).1 (by decide)
      · exact absurd (List.cons_prefix_cons.mp (List.cons_prefix_cons.mp hclose).2).1 (by decide)
      · obtain ⟨rfl, hsecond⟩ := List.cons_prefix_cons.mp hclose
        obtain ⟨rfl, -⟩ := List.cons_prefix_cons.mp hsecond
        exact ⟨after, rfl⟩
    cases before with
    | nil => exact absurd (List.cons.inj hvalue).1 (by decide)
    | cons c before =>
        obtain ⟨rfl, htail⟩ := List.cons.inj hvalue
        rw [isEscaped_cons (by decide)]
        exact h before after htail

/-- Cells with trivia between them end where the next one begins. -/
theorem separate_of_gaps {cells : List Cell} {final : List Char}
    (hgaps : ∀ cell ∈ cells.tail, cell.trivia ≠ []) (hfinal : TrailingTrivia final) :
    Separate final cells := by
  induction cells with
  | nil => exact hfinal
  | cons cell cells ih =>
      refine ⟨?_, ih fun next hnext => hgaps next (List.mem_of_mem_tail hnext)⟩
      cases cells with
      | nil => exact ends_of_trailingTrivia hfinal _
      | cons next cells =>
          rw [joined_cons, List.append_assoc]
          exact ends_of_trivia next.isTrivia (hgaps next List.mem_cons_self) _ _

end Scan

namespace Token

/-- The characters that a script writes for a token. -/
def written (t : Token) : List Char :=
  match t.kind with
  | .punctuation mark => [mark.char]
  | .keyword keyword => keyword.word.toList
  | .directive directive => '#' :: directive.word.toList
  | .expression => '{' :: '{' :: ' ' :: (t.valueText.toList ++ [' ', '}', '}'])
  | _ => t.valueText.toList

/-- The tokens that a script can write. -/
inductive Writable : Token → Prop
  | mark (mark : Punctuation) (position : Position) : Writable ⟨.punctuation mark, none, position⟩
  | keyword (keyword : Keyword) (position : Position) : Writable ⟨.keyword keyword, none, position⟩
  | directive (directive : Directive) (position : Position) :
      Writable ⟨.directive directive, none, position⟩
  | boolean (value : Bool) (position : Position) :
      Writable ⟨.boolean, some (.truth value), position⟩
  /-- A word that is not reserved. -/
  | identifier {name : String} (hword : Scan.IsWord name.toList)
      (hfree : TokenKind.ofWord? name = none) (position : Position) :
      Writable ⟨.identifier, some (.text name), position⟩
  /-- A text whose quotes are escaped, and that does not escape the quote behind it. -/
  | string {raw : String} (hguarded : Scan.Guarded ['"'] raw.toList)
      (hfree : Scan.isEscaped raw.toList = false) (position : Position) :
      Writable ⟨.string, some (.text raw), position⟩
  /-- Code without blanks at its ends, in which pairs of closing braces are escaped. -/
  | expression {code : String} (htrimmed : Text.trim code.toList = code.toList)
      (hguarded : Scan.Guarded ['}', '}'] code.toList) (position : Position) :
      Writable ⟨.expression, some (.text code), position⟩
  | integer {value : Decimal} (hsign : value.negative = false) (hscale : value.scale = 0)
      (position : Position) : Writable ⟨.integer, some (.number value), position⟩
  | decimal {value : Decimal} (hsign : value.negative = false) (hscale : 0 < value.scale)
      (position : Position) : Writable ⟨.decimal, some (.number value), position⟩

/-- What is written for a token is one of its lexemes. -/
theorem Writable.spells {t : Token} (h : t.Writable) : Scan.Spells t.written t.classified := by
  have hdigits : ∀ n, Scan.IsDigits (Nat.toDigits 10 n) := fun n =>
    ⟨Nat.toDigits_ne_nil, fun c => Decimal.isDigit_of_mem_toDigits⟩
  have hpadded : ∀ {width n}, Scan.IsDigits (Decimal.paddedDigits width n) := fun {width n} =>
    ⟨List.append_ne_nil_of_right_ne_nil _ Nat.toDigits_ne_nil,
      fun c => Decimal.isDigit_of_mem_paddedDigits⟩
  have htext : ∀ {value : Decimal}, value.negative = false →
      value.text.toList = value.digitChars := by
    intro value hsign
    rw [Decimal.text, hsign, String.toList_ofList]
    rfl
  cases h with
  | mark mark => exact .mark mark
  | keyword keyword => exact .keyword keyword
  | directive directive => exact .directive directive
  | boolean value => exact .truth value
  | identifier hword hfree => exact .name hword hfree
  | @string raw hguarded hfree position =>
      have hwritten : written ⟨.string, some (.text raw), position⟩ =
          '"' :: (raw.toList ++ ['"']) := by
        simp [written, valueText]
      rw [hwritten]
      exact .string (hguarded.encloses_quote hfree)
  | @expression code htrimmed hguarded position =>
      have hwritten : written ⟨.expression, some (.text code), position⟩ =
          '{' :: '{' :: (' ' :: (code.toList ++ [' ']) ++ ['}', '}']) := by
        simp [written, valueText]
      have hvalue : Text.trim (' ' :: (code.toList ++ [' '])) = code.toList := by
        rw [Text.trim_cons_blank (by decide), Text.trim_concat_blank (by decide), htrimmed]
      have hspells := Scan.Spells.expression hguarded.encloses_braces
      rw [hvalue, String.ofList_toList] at hspells
      rw [hwritten]
      exact hspells
  | @integer value hsign hscale position =>
      have hwritten : written ⟨.integer, some (.number value), position⟩ = value.digitChars :=
        htext hsign
      have hform : Scan.IsDigits value.digitChars := by
        rw [Decimal.digitChars, if_pos hscale]
        exact hdigits _
      rw [hwritten]
      exact .integer hform (Decimal.ofDigitChars?_digitChars hsign)
  | @decimal value hsign hscale position =>
      have hwritten : written ⟨.decimal, some (.number value), position⟩ = value.digitChars :=
        htext hsign
      have hread := Decimal.ofDigitChars?_digitChars hsign
      rw [hwritten]
      rw [Decimal.digitChars, if_neg (Nat.ne_of_gt hscale)] at hread ⊢
      exact .decimal (hdigits _) hpadded hread

end Token

namespace Scan

/-- A token that can be written, and the trivia before it. -/
structure Entry where
  gap : List Char
  token : Token
  isTrivia : Trivia gap
  writable : token.Writable

/-- The cell that writes an entry. -/
def Entry.cell (entry : Entry) : Cell :=
  ⟨entry.gap, entry.token.written, entry.token.classified, entry.isTrivia, entry.writable.spells⟩

/-- Entries in a row as a script writes them. -/
def printed (entries : List Entry) : List Char :=
  entries.flatMap fun entry => entry.gap ++ entry.token.written

theorem printed_eq_joined (entries : List Entry) :
    printed entries = joined (entries.map Entry.cell) := by
  rw [printed, joined, List.flatMap_map]
  rfl

end Scan

/-- Scanning undoes writing. Tokens that can be written, with trivia between each and the next, are
scanned as tokens of the same kinds and values in the same order, followed by the one for the end of
the text. -/
theorem tokenize_printed (entries : List Scan.Entry) (final : List Char)
    (hgaps : ∀ entry ∈ entries.tail, entry.gap ≠ []) (hfinal : Scan.TrailingTrivia final) :
    ∃ ts, tokenize (String.ofList (Scan.printed entries ++ final)) = .ok ts ∧
      ts.map Token.classified =
        entries.map (fun entry => entry.token.classified) ++ [⟨.endOfFile, none⟩] := by
  have hcells : ∀ cell ∈ (entries.map Scan.Entry.cell).tail, cell.trivia ≠ [] := by
    intro cell hcell
    rw [← List.map_tail] at hcell
    obtain ⟨entry, hentry, rfl⟩ := List.mem_map.mp hcell
    exact hgaps entry hentry
  refine ⟨_, Scan.tokenize_eq_ok_iff_cells.mpr
    ⟨entries.map Scan.Entry.cell, final, ?_, ?_, rfl⟩, ?_⟩
  · rw [String.toList_ofList, Scan.printed_eq_joined]
  · exact Scan.separate_of_gaps hcells hfinal
  · rw [Scan.classified_tokensFrom, List.map_map]
    rfl

/-- A name, an equals sign, a string that ends in an escaped quote, code with escaped braces and a
number that ends in a zero, with comments of both kinds between them. -/
theorem tokenize_printed_escapes :
    ∃ ts,
      tokenize "_x/* = */=\t\"a\\\"\" // \"\n\x7b\x7b \\\x7d\x7d \x7d\x7d 3.50 // end" = .ok ts ∧
      ts.map Token.classified =
        [⟨.identifier, some (.text "_x")⟩, ⟨.punctuation .equal, none⟩,
          ⟨.string, some (.text "a\\\"")⟩, ⟨.expression, some (.text "\\\x7d\x7d")⟩,
          ⟨.decimal, some (.number (.ofDigits 350 2 (by decide) (by decide)))⟩,
          ⟨.endOfFile, none⟩] := by
  have hblank : Scan.Trivia [' '] := .cons (.separator rfl) .nil
  have htab : Scan.Trivia ['\t'] := .cons (.separator rfl) .nil
  have hblock : Scan.Trivia "/* = */".toList := by
    have hbody : ¬['*', '/'] <:+: [' ', '=', ' '] := by simp [Scan.commentEnd_infix_cons_iff]
    exact (Scan.Trivium.blockComment hbody).trivia
  have hline : Scan.Trivia " // \"\n".toList := by
    have hbody : '\n' ∉ [' ', '"'] := by decide
    exact .cons (.separator rfl) (Scan.Trivium.lineComment hbody).trivia
  have hend : Scan.TrailingTrivia " // end".toList := by
    have hbody : '\n' ∉ [' ', 'e', 'n', 'd'] := by decide
    exact .openComment hblank hbody
  have hread := tokenize_printed
    [⟨[], ⟨.identifier, some (.text "_x"), .start⟩, .nil,
        .identifier (by decide +kernel) (by decide) .start⟩,
      ⟨_, .plain (.punctuation .equal) .start, hblock, .mark .equal .start⟩,
      ⟨_, ⟨.string, some (.text "a\\\""), .start⟩, htab,
        .string (by decide) (by decide) .start⟩,
      ⟨_, ⟨.expression, some (.text "\\\x7d\x7d"), .start⟩, hline,
        .expression (by decide) (by decide) .start⟩,
      ⟨_, ⟨.decimal, some (.number (.ofDigits 350 2 (by decide) (by decide))), .start⟩, hblank,
        .decimal rfl (by decide) .start⟩]
    _ (by simp) hend
  obtain ⟨ts, htokens, hclassified⟩ := hread
  refine ⟨ts, ?_, hclassified⟩
  rw [← htokens]
  refine congrArg tokenize (String.toList_inj.mp (Eq.trans ?_ String.toList_ofList.symm))
  have hnumber : (Decimal.ofDigits 350 2 (by decide) (by decide)).text = "3.50" := by
    decide +kernel
  simp [Scan.printed, Token.written, Token.valueText, Punctuation.char, Token.plain, hnumber]

end RecordFlow
