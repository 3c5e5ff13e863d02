/-
# What an error of a scan says

A scan that stops names a fault, and each fault describes the text from its place on: something is
opened that nothing closes, the letters behind a sign are no directive, the digits are no decimal,
or a character begins nothing. What is read of a text that fits a description is the fault with that
description, so no text fits two of them. The fault that a scan names is therefore the only one that
fits, and it fits the text from the place of the error on, not some text further down.
-/

import RecordFlow.Proofs.Token.Fault

namespace RecordFlow

namespace Scan

/-- The longest beginning of a text that has a property. -/
structure Longest (p : List Char → Prop) (front text : List Char) : Prop where
  begins : front <+: text
  holds : p front
  longest : ∀ other, other <+: text → p other → other.length ≤ front.length

/-- Nothing but letters. -/
def IsLetters (cs : List Char) : Prop := ∀ c ∈ cs, Text.isAlphabetic c

/-- Digits, or digits with a point and digits behind them. -/
def IsNumber (cs : List Char) : Prop :=
  IsDigits cs ∨
    ∃ whole fraction, cs = whole ++ '.' :: fraction ∧ IsDigits whole ∧ IsDigits fraction

end Scan

/-- What a fault says of the text from its place on. -/
def LexFault.Describes (rest : List Char) : LexFault → Prop
  | unterminatedComment => ∃ body, rest = '/' :: '*' :: body ∧ ¬['*', '/'] <:+: body
  | unterminatedString => ∃ body, rest = '"' :: body ∧ Scan.Unclosed ['"'] body
  | unterminatedExpression => ∃ body, rest = '{' :: '{' :: body ∧ Scan.Unclosed ['}', '}'] body
  | unknownDirective word =>
      ∃ behind, rest = '#' :: behind ∧ Scan.Longest Scan.IsLetters word.toList behind ∧
        ∀ directive : Directive, directive.word ≠ word
  | invalidNumber digits =>
      Scan.Longest Scan.IsNumber digits.toList rest ∧ Decimal.ofDigitChars? digits.toList = none
  | unexpectedCharacter c =>
      ∃ behind, rest = c :: behind ∧ Scan.isSeparator c = false ∧ Text.isAlphabetic c = false ∧
        c ≠ '_' ∧ c.isDigit = false ∧ (∀ mark : Punctuation, mark.char ≠ c) ∧ c ≠ '"' ∧ c ≠ '#' ∧
        (c = '/' → behind.head? ≠ some '/' ∧ behind.head? ≠ some '*')

namespace Scan

variable {c : Char} {cs front rest text other : List Char} {fault : LexFault}

theorem Longest.unique {p : List Char → Prop} (h : Longest p front text)
    (hother : Longest p other text) : front = other := by
  have hlength : front.length = other.length :=
    Nat.le_antisymm (hother.longest front h.begins h.holds)
      (h.longest other hother.begins hother.holds)
  have hbegins : front <+: other :=
    List.prefix_of_prefix_length_le h.begins hother.begins (Nat.le_of_eq hlength)
  exact hbegins.eq_of_length hlength

/-- A beginning of characters of one class goes no further than the first other character. -/
theorem length_le_of_class {p : Char → Bool} (hother : other <+: front ++ rest)
    (hall : ∀ d ∈ other, p d) (hends : ∀ d ∈ rest.head?, p d = false) :
    other.length ≤ front.length := by
  refine Nat.le_of_not_lt fun hlonger => ?_
  have hfront : front <+: other :=
    List.prefix_of_prefix_length_le (List.prefix_append front rest) hother (Nat.le_of_lt hlonger)
  obtain ⟨more, rfl⟩ := hfront
  cases more with
  | nil => simp at hlonger
  | cons d more =>
      obtain ⟨behind, rfl⟩ := (List.prefix_append_right_inj front).mp hother
      have hd := hall d (by simp)
      rw [hends d rfl] at hd
      cases hd

theorem longest_letters (hletters : ∀ d ∈ front, Text.isAlphabetic d)
    (hends : ∀ d ∈ rest.head?, Text.isAlphabetic d = false) :
    Longest IsLetters front (front ++ rest) :=
  ⟨List.prefix_append _ _, hletters, fun _ hother hall => length_le_of_class hother hall hends⟩

/-- The digits at the beginning of a text are what stands before the first other character. -/
theorem digits_unique {first second : List Char} (hfront : ∀ d ∈ front, d.isDigit)
    (hother : ∀ d ∈ other, d.isDigit) (hfirst : ∀ d ∈ first.head?, d.isDigit = false)
    (hsecond : ∀ d ∈ second.head?, d.isDigit = false) (h : front ++ first = other ++ second) :
    front = other ∧ first = second := by
  obtain ⟨htake, hdrop⟩ := span_exact hfront hfirst
  obtain ⟨htake', hdrop'⟩ := span_exact hother hsecond
  rw [h] at htake hdrop
  exact ⟨htake.symm.trans htake', hdrop.symm.trans hdrop'⟩

/-- A point and a fraction behind the digits of a text are those of every number with a point that
begins the text. -/
theorem fraction_of_begins {whole fraction : List Char} (hfront : ∀ d ∈ front, d.isDigit)
    (hends : ∀ d ∈ rest.head?, d.isDigit = false) (hwhole : IsDigits whole)
    (hother : whole ++ '.' :: fraction <+: front ++ rest) :
    whole = front ∧ ∃ behind, rest = '.' :: (fraction ++ behind) := by
  obtain ⟨behind, hbehind⟩ := hother
  rw [List.append_assoc, List.cons_append] at hbehind
  obtain ⟨rfl, hrest⟩ := digits_unique hwhole.2 hfront (by simp) hends hbehind
  exact ⟨rfl, behind, hrest.symm⟩

theorem longest_integer (hdigits : IsDigits front) (hends : Ends .integer rest) :
    Longest IsNumber front (front ++ rest) := by
  refine ⟨List.prefix_append _ _, .inl hdigits, ?_⟩
  rintro other hother (hall | ⟨whole, fraction, rfl, hwhole, hne, hfraction⟩)
  · exact length_le_of_class hother hall.2 hends.1
  · obtain ⟨-, behind, hrest⟩ := fraction_of_begins hdigits.2 hends.1 hwhole hother
    cases fraction with
    | nil => exact absurd rfl hne
    | cons d fraction =>
        have hd := hfraction d List.mem_cons_self
        rw [hends.2 d _ hrest] at hd
        cases hd

theorem longest_decimal {whole fraction : List Char} (hwhole : IsDigits whole)
    (hfraction : IsDigits fraction) (hends : Ends .decimal rest) :
    Longest IsNumber (whole ++ '.' :: fraction) (whole ++ '.' :: fraction ++ rest) := by
  refine ⟨List.prefix_append _ _, .inr ⟨whole, fraction, rfl, hwhole, hfraction⟩, ?_⟩
  have hpoint : ∀ d ∈ ('.' :: (fraction ++ rest)).head?, d.isDigit = false := by simp
  intro other hother hnumber
  rw [List.append_assoc, List.cons_append] at hother
  rw [List.length_append, List.length_cons]
  rcases hnumber with hall | ⟨whole', fraction', rfl, hwhole', hfraction'⟩
  · have hle := length_le_of_class hother hall.2 hpoint
    omega
  · obtain ⟨rfl, behind, hrest⟩ := fraction_of_begins hwhole.2 hpoint hwhole' hother
    have hbegins : fraction' <+: fraction ++ rest := ⟨behind, (List.cons.inj hrest).2.symm⟩
    have hle := length_le_of_class hbegins hfraction'.2 hends
    rw [List.length_append, List.length_cons]
    omega

theorem longest_splitNumber (hc : c.isDigit) (cs : List Char) :
    Longest IsNumber (splitNumber c cs).1 (c :: cs) := by
  have happend := splitNumber_append c cs
  rcases splitNumber_spells hc cs with ⟨-, hdigits, hends⟩ |
    ⟨-, ⟨whole, fraction, hdigits, hwhole, hfraction⟩, hends⟩
  · have hlongest := longest_integer hdigits hends
    rwa [happend] at hlongest
  · have hlongest := longest_decimal hwhole hfraction hends
    rwa [← hdigits, happend] at hlongest

/-- A number begins with a digit. -/
theorem IsNumber.head (h : IsNumber cs) : ∃ d more, cs = d :: more ∧ d.isDigit := by
  have hdigits : ∀ digits, IsDigits digits → ∃ d more, digits = d :: more ∧ d.isDigit := by
    rintro digits ⟨hne, hall⟩
    obtain ⟨d, more, rfl⟩ := List.exists_cons_of_ne_nil hne
    exact ⟨d, more, rfl, hall d List.mem_cons_self⟩
  rcases h with h | ⟨whole, fraction, rfl, hwhole, -⟩
  · exact hdigits cs h
  · obtain ⟨d, more, rfl, hd⟩ := hdigits whole hwhole
    exact ⟨d, more ++ '.' :: fraction, rfl, hd⟩

theorem describes_of_offends (h : Offends fault rest) : fault.Describes rest := by
  cases h with
  | comment hbody => exact ⟨_, rfl, hbody⟩
  | string hbody => exact ⟨_, rfl, hbody⟩
  | expression hbody => exact ⟨_, rfl, hbody⟩
  | directive hletters hends hunknown =>
      exact ⟨_, rfl, longest_letters hletters hends, hunknown⟩
  | integer hdigits hends hvalue => exact ⟨longest_integer hdigits hends, hvalue⟩
  | decimal hdigits hwhole hfraction hends hvalue =>
      refine ⟨?_, hvalue⟩
      rw [hdigits]
      exact longest_decimal hwhole hfraction hends
  | character hseparator hword hdigit hmark hquote hsign hcomment =>
      obtain ⟨hletter, hunderscore⟩ := Bool.or_eq_false_iff.mp hword
      exact ⟨_, rfl, hseparator, hletter, beq_eq_false_iff_ne.mp hunderscore, hdigit, hmark, hquote,
        hsign, hcomment⟩

theorem readDirective_of_describes {word : String} (hword : Longest IsLetters word.toList cs)
    (hunknown : ∀ directive : Directive, directive.word ≠ word) :
    (readDirective cs).outcome = .error (.unknownDirective word) := by
  obtain ⟨hletters, hends⟩ := span_holds Text.isAlphabetic cs
  have hlongest := longest_letters hletters hends
  rw [List.takeWhile_append_dropWhile] at hlongest
  have hnone : Directive.ofWord? word = none := by
    apply List.find?_eq_none.mpr
    intro directive _ hsame
    exact hunknown directive (eq_of_beq hsame)
  simp only [readDirective, hlongest.unique hword, String.ofList_toList, hnone]

theorem readNumber_of_describes {digits : String} (hc : c.isDigit)
    (hdigits : Longest IsNumber digits.toList (c :: cs))
    (hvalue : Decimal.ofDigitChars? digits.toList = none) :
    (readNumber c cs).outcome = .error (.invalidNumber digits) := by
  simp only [readNumber, (longest_splitNumber hc cs).unique hdigits, hvalue, String.ofList_toList]

/-- What is read of a text that fits the description of a fault is that fault. -/
theorem readLexeme_of_describes (h : fault.Describes rest) :
    ∃ c cs, rest = c :: cs ∧ (readLexeme c cs).outcome = .error fault := by
  cases fault with
  | unterminatedComment =>
      obtain ⟨body, rfl, -⟩ := h
      exact ⟨_, _, rfl, rfl⟩
  | unterminatedString =>
      obtain ⟨body, rfl, hbody⟩ := h
      have hnone := (upToCloser_eq_none_iff (List.cons_ne_nil _ _)).mpr hbody
      refine ⟨_, _, rfl, ?_⟩
      change (readString body).outcome = _
      rw [readString, hnone]
  | unterminatedExpression =>
      obtain ⟨body, rfl, hbody⟩ := h
      have hnone := (upToCloser_eq_none_iff (List.cons_ne_nil _ _)).mpr hbody
      refine ⟨_, _, rfl, ?_⟩
      change (readExpression body).outcome = _
      rw [readExpression, hnone]
  | unknownDirective word =>
      obtain ⟨behind, rfl, hword, hunknown⟩ := h
      exact ⟨_, _, rfl, readDirective_of_describes hword hunknown⟩
  | invalidNumber digits =>
      obtain ⟨hdigits, hvalue⟩ := h
      obtain ⟨c, more, hmore, hc⟩ := hdigits.holds.head
      obtain ⟨behind, rfl⟩ := hdigits.begins
      rw [hmore, List.cons_append] at hdigits ⊢
      refine ⟨c, more ++ behind, rfl, ?_⟩
      rw [readLexeme_of_isDigit hc]
      exact readNumber_of_describes hc (hmore ▸ hdigits) hvalue
  | unexpectedCharacter c =>
      obtain ⟨behind, rfl, -, hletter, hunderscore, hdigit, hmark, hquote, hsign, hcomment⟩ := h
      have hword : isWordStart c = false := by simp [isWordStart, hletter, hunderscore]
      have hnone : Punctuation.ofChar? c = none := by
        rw [Option.eq_none_iff_forall_ne_some]
        intro mark hsome
        exact hmark mark (ofChar?_eq_some_iff.mp hsome)
      have hbrace : c ≠ '{' := (hmark .leftBrace).symm
      refine ⟨c, behind, rfl, ?_⟩
      rw [readLexeme_plain hquote hsign (absurd · hbrace) fun hslash => (hcomment hslash).2]
      simp [hnone, hword, hdigit]

/-- No text fits the descriptions of two faults. -/
theorem describes_unique {second : LexFault} (h : fault.Describes rest)
    (hsecond : second.Describes rest) : fault = second := by
  obtain ⟨c, cs, rfl, hread⟩ := readLexeme_of_describes h
  obtain ⟨_, _, heq, hread'⟩ := readLexeme_of_describes hsecond
  cases heq
  rw [hread] at hread'
  exact Except.error.inj hread'

end Scan

/-- A text that cannot be scanned is cut at the place of the error. What stands before the place is
scanned alone to the tokens that were found before the error. The fault is the one whose description
fits what stands behind, and no other fault's does. -/
theorem lex_error_describes_rest (source : String) (e : LexError)
    (h : tokenize source = .error e) :
    ∃ front rest, source.toList = front ++ rest ∧
      tokenize (String.ofList front) =
        .ok ((Scan.scan source).tokens ++ [.plain .endOfFile e.position]) ∧
      e.position = .behind front ∧
      ∀ fault : LexFault, e.fault = fault ↔ fault.Describes rest := by
  obtain ⟨front, rest, hsource, hposition, hoffends, htokens⟩ := standsIn_of_tokenize_error h
  have hdescribes := Scan.describes_of_offends hoffends
  refine ⟨front, rest, hsource, htokens, hposition, fun fault => ⟨?_, ?_⟩⟩
  · rintro rfl
    exact hdescribes
  · exact Scan.describes_unique hdescribes

/-- A quote behind one backslash does not close a string, and the string before it is closed by a
quote behind two. -/
theorem lex_error_describes_rest_string :
    let source := "a = \"x\\\\\" // y\n 1.5 \"z\\\" /*"
    let e : LexError := ⟨.unterminatedString, ⟨2, 6⟩⟩
    tokenize source = .error e ∧
      ∃ front rest, source.toList = front ++ rest ∧
        tokenize (String.ofList front) =
          .ok ((Scan.scan source).tokens ++ [.plain .endOfFile e.position]) ∧
        e.position = .behind front ∧
        ∀ fault : LexFault, .unterminatedString = fault ↔ fault.Describes rest := by
  intro source e
  have hfails : tokenize source = .error e := tokenize_eq_error_iff.mpr (by decide +kernel)
  exact ⟨hfails, lex_error_describes_rest source e hfails⟩

end RecordFlow
