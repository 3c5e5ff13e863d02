/-
# What is wrong with a text

A text that begins with neither trivia nor a lexeme is at fault in one of a few ways, and each of
them is described here without a reader, beside the lexemes. A scan that stops with an error has
read all that stands in front of the error's place: this much of the text is scanned alone to the
same tokens, and what begins at the place is at fault as the error says.
-/

import RecordFlow.Proofs.Token.Partition

namespace RecordFlow

namespace Scan

/-- The texts that begin with no lexeme and are no trivia, each with what is wrong at its beginning:
a comment, a string or an expression that nothing closes, letters that are no directive, digits that
are no decimal, a character that begins nothing. -/
inductive Offends : LexFault → List Char → Prop
  | comment {body : List Char} (h : ¬['*', '/'] <:+: body) :
      Offends .unterminatedComment ('/' :: '*' :: body)
  | string {body : List Char} (h : Unclosed ['"'] body) :
      Offends .unterminatedString ('"' :: body)
  | expression {body : List Char} (h : Unclosed ['}', '}'] body) :
      Offends .unterminatedExpression ('{' :: '{' :: body)
  | directive {word : String} {rest : List Char}
      (hletters : ∀ c ∈ word.toList, Text.isAlphabetic c)
      (hends : ∀ c ∈ rest.head?, Text.isAlphabetic c = false)
      (hunknown : ∀ directive : Directive, directive.word ≠ word) :
      Offends (.unknownDirective word) ('#' :: (word.toList ++ rest))
  | integer {digits : String} {rest : List Char} (hdigits : IsDigits digits.toList)
      (hends : Ends .integer rest) (hvalue : Decimal.ofDigitChars? digits.toList = none) :
      Offends (.invalidNumber digits) (digits.toList ++ rest)
  | decimal {digits : String} {whole fraction rest : List Char}
      (hdigits : digits.toList = whole ++ '.' :: fraction) (hwhole : IsDigits whole)
      (hfraction : IsDigits fraction) (hends : Ends .decimal rest)
      (hvalue : Decimal.ofDigitChars? digits.toList = none) :
      Offends (.invalidNumber digits) (digits.toList ++ rest)
  | character {c : Char} {rest : List Char} (hseparator : isSeparator c = false)
      (hword : isWordStart c = false) (hdigit : c.isDigit = false)
      (hmark : ∀ mark : Punctuation, mark.char ≠ c) (hquote : c ≠ '"') (hsign : c ≠ '#')
      (hcomment : c = '/' → rest.head? ≠ some '/' ∧ rest.head? ≠ some '*') :
      Offends (.unexpectedCharacter c) (c :: rest)

variable {c : Char} {cs rest : List Char} {fault : LexFault}

theorem offends_of_readString (h : (readString cs).outcome = .error fault) :
    Offends fault ('"' :: cs) := by
  unfold readString at h
  cases hbody : upToCloser ['"'] false cs with
  | some cut =>
      simp only [hbody] at h
      exact nomatch h
  | none =>
      simp only [hbody] at h
      cases h
      exact .string ((upToCloser_eq_none_iff (List.cons_ne_nil _ _)).mp hbody)

theorem offends_of_readExpression (h : (readExpression cs).outcome = .error fault) :
    Offends fault ('{' :: '{' :: cs) := by
  unfold readExpression at h
  cases hbody : upToCloser ['}', '}'] false cs with
  | some cut =>
      simp only [hbody] at h
      exact nomatch h
  | none =>
      simp only [hbody] at h
      cases h
      exact .expression ((upToCloser_eq_none_iff (List.cons_ne_nil _ _)).mp hbody)

theorem offends_of_readDirective (h : (readDirective cs).outcome = .error fault) :
    Offends fault ('#' :: cs) := by
  unfold readDirective at h
  cases hword : Directive.ofWord? (String.ofList (cs.takeWhile Text.isAlphabetic)) with
  | some directive =>
      simp only [hword] at h
      exact nomatch h
  | none =>
      simp only [hword] at h
      cases h
      obtain ⟨hletters, hends⟩ := span_holds Text.isAlphabetic cs
      have hunknown : ∀ directive : Directive,
          directive.word ≠ String.ofList (cs.takeWhile Text.isAlphabetic) := by
        intro directive hsame
        have hmem : directive ∈ Directive.all := by cases directive <;> decide
        exact List.find?_eq_none.mp hword directive hmem (beq_iff_eq.mpr hsame)
      have htoList := String.toList_ofList (l := cs.takeWhile Text.isAlphabetic)
      have hoffends := Offends.directive (htoList.symm ▸ hletters) hends hunknown
      rwa [htoList, List.takeWhile_append_dropWhile] at hoffends

theorem offends_of_readNumber (hc : c.isDigit) (h : (readNumber c cs).outcome = .error fault) :
    Offends fault (c :: cs) := by
  have happend := splitNumber_append c cs
  have hsplit := splitNumber_spells hc cs
  unfold readNumber at h
  generalize splitNumber c cs = number at h happend hsplit
  obtain ⟨digits, fractional, rest⟩ := number
  cases hvalue : Decimal.ofDigitChars? digits with
  | some value =>
      simp only [hvalue] at h
      exact nomatch h
  | none =>
      simp only [hvalue] at h
      cases h
      obtain ⟨word, rfl⟩ : ∃ word : String, digits = word.toList :=
        ⟨String.ofList digits, String.toList_ofList.symm⟩
      rw [← happend, String.ofList_toList]
      rcases hsplit with ⟨-, hdigits, hends⟩ |
        ⟨-, ⟨whole, fraction, hdigits, hwhole, hfraction⟩, hends⟩
      · exact .integer hdigits hends hvalue
      · exact .decimal hdigits hwhole hfraction hends hvalue

/-- Where no trivia begins, no separator stands and no line comment begins. -/
theorem not_opens_of_trivium?_none (h : trivium? (c :: cs) = none) :
    isSeparator c = false ∧ (c = '/' → cs.head? ≠ some '/') := by
  by_cases hslash : c = '/'
  · subst hslash
    refine ⟨rfl, fun _ hhead => ?_⟩
    obtain ⟨tail, rfl⟩ := List.head?_eq_some_iff.mp hhead
    exact nomatch h
  · rw [trivium?_cons hslash] at h
    cases hseparator : isSeparator c with
    | false => exact ⟨rfl, fun hc => absurd hc hslash⟩
    | true =>
        rw [if_pos hseparator] at h
        exact nomatch h

/-- A text that begins with no trivia and cannot be read is at fault as the reading says. -/
theorem offends_of_readLexeme (htrivia : trivium? (c :: cs) = none)
    (h : (readLexeme c cs).outcome = .error fault) : Offends fault (c :: cs) := by
  unfold readLexeme at h
  split at h
  · exact offends_of_readString h
  · exact offends_of_readExpression h
  · exact offends_of_readDirective h
  · cases h
    exact .comment (not_infix_of_throughCommentEnd_none (Option.map_eq_none_iff.mp htrivia))
  · next hquote hsign _ hcomment =>
      cases hmark : Punctuation.ofChar? c with
      | some mark =>
          simp only [hmark] at h
          exact nomatch h
      | none =>
          simp only [hmark] at h
          by_cases hword : isWordStart c
          · simp only [if_pos hword] at h
            exact nomatch h
          by_cases hdigit : c.isDigit
          · simp only [if_neg hword, if_pos hdigit] at h
            exact offends_of_readNumber hdigit h
          simp only [if_neg hword, if_neg hdigit] at h
          cases h
          have hmarks : ∀ mark : Punctuation, mark.char ≠ c := by
            intro mark hchar
            exact nomatch hmark.symm.trans (ofChar?_eq_some_iff.mpr hchar)
          obtain ⟨hseparator, hlineComment⟩ := not_opens_of_trivium?_none htrivia
          refine .character hseparator (Bool.eq_false_iff.mpr hword) (Bool.eq_false_iff.mpr hdigit)
            hmarks hquote hsign fun hslash => ⟨hlineComment hslash, ?_⟩
          intro hhead
          obtain ⟨tail, rfl⟩ := List.head?_eq_some_iff.mp hhead
          exact hcomment tail hslash rfl

/-- What may follow a lexeme in a text may follow it where the text is cut off. -/
theorem Ends.of_append {kind : TokenKind} {xs ys : List Char} (h : Ends kind (xs ++ ys)) :
    Ends kind xs := by
  cases xs with
  | nil => exact ends_nil kind
  | cons x xs =>
      cases kind with
      | integer =>
          refine ⟨h.1, fun d more hpoint => h.2 d (more ++ ys) ?_⟩
          rw [hpoint]
          rfl
      | punctuation mark => cases mark <;> exact h
      | _ => exact h

/-- A scan that stops with an error has cut the text in front of it into cells, with trivia behind
them, and the text behind is at fault. -/
theorem cells_of_scanFrom_error {position : Position} {e : LexError}
    (h : (scanFrom position cs).error? = some e) :
    ∃ cells gap rest, cs = joined cells ++ gap ++ rest ∧ Separate gap cells ∧
      e.position = position.after (joined cells ++ gap) ∧ Offends e.fault rest ∧
      tokensFrom position gap cells =
        (scanFrom position cs).tokens ++ [.plain .endOfFile e.position] := by
  fun_induction scanFrom position cs with
  | case1 position cs htext start => cases h
  | case2 position cs c rest htext start behind found hread _ ih =>
      obtain ⟨cells, gap, after, hafter, hseparate, hposition, hoffends, htokens⟩ := ih h
      obtain ⟨hspells, hends⟩ := spells_of_readLexeme hread
      have htrivia : Trivia (skipTrivia cs).1 := by
        obtain htrivia | ⟨hend, -⟩ := trivia_of_skipTrivia cs
        · exact htrivia
        · exact absurd (htext.symm.trans hend) (List.cons_ne_nil c rest)
      refine ⟨⟨_, _, found, htrivia, hspells⟩ :: cells, gap, after, ?_,
        ⟨(hafter ▸ hends).of_append, hseparate⟩, ?_, hoffends, ?_⟩
      · rw [joined_cons, List.append_assoc, List.append_assoc, List.append_assoc,
          ← List.append_assoc (joined cells), ← hafter, readLexeme_append, ← htext,
          skipTrivia_append]
      · rw [hposition]
        simp only [joined_cons, Position.after_append, start, behind]
      · simp only [Result.cons, tokensFrom, Cell.token, Cell.text, Position.after_append,
          List.cons_append, ← htokens]
        rfl
  | case3 position cs c rest htext start behind fault hread =>
      cases h
      have htrivia : TrailingTrivia (skipTrivia cs).1 := by
        obtain htrivia | ⟨-, htrivia⟩ := trivia_of_skipTrivia cs
        · exact .complete htrivia
        · exact htrivia
      refine ⟨[], (skipTrivia cs).1, c :: rest, ?_, htrivia, rfl, ?_, rfl⟩
      · rw [joined_nil, List.nil_append, ← htext, skipTrivia_append]
      · exact offends_of_readLexeme (htext ▸ trivium?_of_skipTrivia cs) hread

end Scan

/-- The text has the error: what begins where the error stands is at fault as the error says, and
what stands in front of it can be scanned. -/
def LexError.StandsIn (e : LexError) (source : String) : Prop :=
  ∃ front rest, source.toList = front ++ rest ∧ e.position = .behind front ∧
    Scan.Offends e.fault rest ∧
    tokenize (String.ofList front) =
      .ok ((Scan.scan source).tokens ++ [.plain .endOfFile e.position])

theorem standsIn_of_tokenize_error {source : String} {e : LexError}
    (h : tokenize source = .error e) : e.StandsIn source := by
  obtain ⟨cells, gap, rest, hsource, hseparate, hposition, hoffends, htokens⟩ :=
    Scan.cells_of_scanFrom_error (tokenize_eq_error_iff.mp h)
  refine ⟨Scan.joined cells ++ gap, rest, hsource, ?_, hoffends, ?_⟩
  · rw [hposition, Position.start_after]
  · refine Scan.tokenize_eq_ok_iff_cells.mpr ⟨cells, gap, ?_, hseparate, htokens.symm⟩
    rw [String.toList_ofList]

end RecordFlow
