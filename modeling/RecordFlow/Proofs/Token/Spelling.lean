/-
# How tokens are spelled

The lexemes of the language, described without a reader: each form of a token with the characters
that write it. A lexeme says by itself which token it is. Which lexeme a text begins with also
depends on what follows, since words, directives and numbers go as far as they can and two braces
are not one; `Ends` says what may follow. Reading a text finds exactly the lexeme that begins it
and ends there.
-/

import RecordFlow.Proofs.Token.Escaped
import RecordFlow.Proofs.Token.Trivia

namespace RecordFlow

namespace Scan

/-- A letter or an underscore, and then letters, digits and underscores. -/
def IsWord : List Char → Prop
  | [] => False
  | c :: cs => isWordStart c ∧ ∀ d ∈ cs, isWordChar d

instance decidableIsWord : (cs : List Char) → Decidable (IsWord cs)
  | [] => .isFalse id
  | c :: cs =>
      decidable_of_iff (isWordStart c ∧ cs.all isWordChar) (and_congr_right' List.all_eq_true)

/-- At least one ASCII digit, and nothing else. -/
def IsDigits (cs : List Char) : Prop := cs ≠ [] ∧ ∀ c ∈ cs, c.isDigit

/-- The lexemes of a token. A name and a string are written as they are, the latter in quotes; an
expression is trimmed, and a number is what its digits are read as. -/
inductive Spells : List Char → Classified → Prop
  | mark (mark : Punctuation) : Spells [mark.char] ⟨.punctuation mark, none⟩
  | keyword (keyword : Keyword) : Spells keyword.word.toList ⟨.keyword keyword, none⟩
  | truth (value : Bool) : Spells (truthWord value).toList ⟨.boolean, some (.truth value)⟩
  | name {name : String} (hword : IsWord name.toList) (hfree : TokenKind.ofWord? name = none) :
      Spells name.toList ⟨.identifier, some (.text name)⟩
  | directive (directive : Directive) :
      Spells ('#' :: directive.word.toList) ⟨.directive directive, none⟩
  | string {raw : String} (h : Encloses ['"'] raw.toList) :
      Spells ('"' :: (raw.toList ++ ['"'])) ⟨.string, some (.text raw)⟩
  | expression {inner : List Char} (h : Encloses ['}', '}'] inner) :
      Spells ('{' :: '{' :: (inner ++ ['}', '}']))
        ⟨.expression, some (.text (String.ofList (Text.trim inner)))⟩
  | integer {digits : List Char} {value : Decimal} (hdigits : IsDigits digits)
      (hvalue : Decimal.ofDigitChars? digits = some value) :
      Spells digits ⟨.integer, some (.number value)⟩
  | decimal {whole fraction : List Char} {value : Decimal} (hwhole : IsDigits whole)
      (hfraction : IsDigits fraction)
      (hvalue : Decimal.ofDigitChars? (whole ++ '.' :: fraction) = some value) :
      Spells (whole ++ '.' :: fraction) ⟨.decimal, some (.number value)⟩

/-- What may follow a lexeme of a kind. A word is not followed by more of a word, a number by more
of a number, a single brace by another one. -/
def Ends (kind : TokenKind) (rest : List Char) : Prop :=
  match kind with
  | .identifier | .keyword _ | .boolean => ∀ c ∈ rest.head?, isWordChar c = false
  | .directive _ => ∀ c ∈ rest.head?, Text.isAlphabetic c = false
  | .integer =>
      (∀ c ∈ rest.head?, c.isDigit = false) ∧
        ∀ d more, rest = '.' :: d :: more → d.isDigit = false
  | .decimal => ∀ c ∈ rest.head?, c.isDigit = false
  | .punctuation .leftBrace => rest.head? ≠ some '{'
  | _ => True

variable {c : Char} {cs rest lexeme : List Char} {found : Classified}

theorem ofChar?_eq_some_iff {mark : Punctuation} :
    Punctuation.ofChar? c = some mark ↔ mark.char = c := by
  constructor
  · intro h
    have hchar : (mark.char == c) = true :=
      List.find?_some (p := fun mark : Punctuation => mark.char == c) h
    exact eq_of_beq hchar
  · rintro rfl
    cases mark <;> rfl

/-- A character of a class without punctuation marks is none. -/
theorem ofChar?_eq_none {p : Char → Bool} (hp : ∀ mark : Punctuation, p mark.char = false)
    (hc : p c) : Punctuation.ofChar? c = none := by
  rw [Option.eq_none_iff_forall_ne_some]
  intro mark hmark
  rw [← ofChar?_eq_some_iff.mp hmark, hp mark] at hc
  exact nomatch hc

theorem IsWord.isWordChar {cs : List Char} (h : IsWord cs) :
    cs ≠ [] ∧ ∀ c ∈ cs, isWordChar c := by
  cases cs with
  | nil => exact h.elim
  | cons first rest =>
      obtain ⟨hfirst, hrest⟩ := h
      refine ⟨List.cons_ne_nil first rest, List.forall_mem_cons.mpr ⟨?_, hrest⟩⟩
      rcases Bool.or_eq_true _ _ ▸ hfirst with hletter | hunderscore
      · simp [Scan.isWordChar, hletter]
      · simp [Scan.isWordChar, hunderscore]

/-- No letter and no underscore is a digit. -/
theorem isWordStart_of_isDigit (h : c.isDigit) : isWordStart c = false := by
  have hcode : c.toNat ≤ 57 := by
    simp only [Char.isDigit, Bool.and_eq_true, decide_eq_true_eq] at h
    exact h.2
  have halphabetic : Text.isAlphabetic c = false := by
    have hbelow : c.toNat < 0x41 := by omega
    show Text.Ranges.holds ((0x41, 0x5A) :: _) c.toNat = false
    exact if_pos hbelow
  have hunderscore : (c == '_') = false := by
    rw [beq_eq_false_iff_ne]
    rintro rfl
    exact absurd hcode (by decide)
  rw [isWordStart, halphabetic, hunderscore]
  rfl

theorem readLexeme_of_isWordStart (h : isWordStart c) (cs : List Char) :
    readLexeme c cs = readWord c cs := by
  have hne : ∀ d : Char, isWordStart d = false → c ≠ d := by
    rintro d hd rfl
    rw [hd] at h
    exact nomatch h
  have hmark : Punctuation.ofChar? c = none :=
    ofChar?_eq_none (fun mark => by cases mark <;> decide +kernel) h
  rw [readLexeme_plain (hne '"' (by decide +kernel)) (hne '#' (by decide +kernel))
    (absurd · (hne '{' (by decide +kernel))) (absurd · (hne '/' (by decide +kernel)))]
  simp only [hmark, if_pos h]

theorem readLexeme_of_isDigit (h : c.isDigit) (cs : List Char) :
    readLexeme c cs = readNumber c cs := by
  have hne : ∀ d : Char, d.isDigit = false → c ≠ d := by
    rintro d hd rfl
    rw [hd] at h
    exact nomatch h
  have hmark : Punctuation.ofChar? c = none :=
    ofChar?_eq_none (fun mark => by cases mark <;> rfl) h
  have hword : ¬isWordStart c = true := by simp [isWordStart_of_isDigit h]
  rw [readLexeme_plain (hne '"' rfl) (hne '#' rfl) (absurd · (hne '{' rfl))
    (absurd · (hne '/' rfl))]
  simp only [hmark, if_neg hword, if_pos h]

/-- Only the brace that may begin an expression says something about what follows it. -/
theorem ends_mark_iff (mark : Punctuation) :
    Ends (.punctuation mark) rest ↔ (mark.char = '{' → rest.head? ≠ some '{') := by
  by_cases hmark : mark = .leftBrace
  · subst hmark
    exact ⟨fun h _ => h, fun h => h rfl⟩
  · have hchar : mark.char ≠ '{' := by
      intro hchar
      exact hmark (Option.some.inj ((ofChar?_eq_some_iff.mpr hchar).symm.trans rfl))
    have hends : Ends (.punctuation mark) rest := by cases mark <;> trivial
    exact ⟨fun _ h => absurd h hchar, fun _ => hends⟩

theorem readLexeme_mark {mark : Punctuation} (h : Ends (.punctuation mark) cs) :
    readLexeme mark.char cs = ⟨.ok ⟨.punctuation mark, none⟩, [mark.char], cs⟩ := by
  rw [readLexeme_plain (by cases mark <;> decide) (by cases mark <;> decide)
    ((ends_mark_iff mark).mp h) (fun hslash => by cases mark <;> exact nomatch hslash)]
  simp only [ofChar?_eq_some_iff.mpr rfl]

theorem ends_classifyWord (word : String) (rest : List Char) :
    Ends (classifyWord word).kind rest ↔ ∀ c ∈ rest.head?, isWordChar c = false := by
  unfold classifyWord TokenKind.ofWord?
  by_cases htruth : word = "true" ∨ word = "false"
  · rw [if_pos htruth]
    exact Iff.rfl
  · rw [if_neg htruth]
    cases Keyword.ofWord? word with
    | none => exact Iff.rfl
    | some keyword => exact Iff.rfl

/-- A word is spelled as it is classified. -/
theorem spells_classifyWord {word : String} (h : IsWord word.toList) :
    Spells word.toList (classifyWord word) := by
  have hfree := @Spells.name word h
  unfold classifyWord TokenKind.ofWord? at *
  by_cases htruth : word = "true" ∨ word = "false"
  · rw [if_pos htruth]
    rcases htruth with rfl | rfl
    · exact .truth true
    · exact .truth false
  · rw [if_neg htruth] at hfree ⊢
    cases hkeyword : Keyword.ofWord? word with
    | none => exact hfree (by rw [hkeyword]; rfl)
    | some keyword =>
        have hword : (keyword.word == word) = true :=
          List.find?_some (p := fun keyword : Keyword => keyword.word == word) hkeyword
        rw [← eq_of_beq hword]
        exact .keyword keyword

/-- A word that nothing continues is read whole. -/
theorem readLexeme_word {word : String} (h : IsWord word.toList)
    (hends : ∀ d ∈ rest.head?, isWordChar d = false) (htext : c :: cs = word.toList ++ rest) :
    readLexeme c cs = ⟨.ok (classifyWord word), word.toList, rest⟩ := by
  generalize hletters : word.toList = letters at h htext
  cases letters with
  | nil => exact h.elim
  | cons d letters =>
      rw [List.cons_append] at htext
      obtain ⟨rfl, rfl⟩ := List.cons.inj htext
      obtain ⟨htake, hdrop⟩ := span_exact h.2 hends
      rw [readLexeme_of_isWordStart h.1, readWord, htake, hdrop, ← hletters, String.ofList_toList]

/-- What is read as a word is one, and nothing continues it. -/
theorem readWord_spells (h : isWordStart c) (cs : List Char) {found : Classified}
    (hfound : (readWord c cs).outcome = .ok found) :
    Spells (readWord c cs).consumed found ∧ Ends found.kind (readWord c cs).rest := by
  cases hfound
  obtain ⟨hletters, hends⟩ := span_holds isWordChar cs
  have hword : IsWord (String.ofList (c :: cs.takeWhile isWordChar)).toList := by
    rw [String.toList_ofList]
    exact ⟨h, hletters⟩
  constructor
  · have hspells := spells_classifyWord hword
    rwa [String.toList_ofList] at hspells
  · exact (ends_classifyWord _ _).mpr hends

theorem splitNumber_integer (hcs : ∀ d ∈ cs, d.isDigit) (hends : Ends .integer rest) :
    splitNumber c (cs ++ rest) = (c :: cs, false, rest) := by
  obtain ⟨htake, hdrop⟩ := span_exact hcs hends.1
  unfold splitNumber
  rw [htake, hdrop]
  split
  · next d more => simp [hends.2 d more rfl]
  · rfl

theorem splitNumber_decimal {fraction : List Char} (hcs : ∀ d ∈ cs, d.isDigit)
    (hfraction : IsDigits fraction) (hends : Ends .decimal rest) :
    splitNumber c (cs ++ '.' :: (fraction ++ rest)) = (c :: cs ++ '.' :: fraction, true, rest) := by
  have hpoint : ∀ d ∈ ('.' :: (fraction ++ rest)).head?, d.isDigit = false := by simp
  obtain ⟨htake, hdrop⟩ := span_exact hcs hpoint
  obtain ⟨htail, hbehind⟩ := span_exact hfraction.2 hends
  unfold splitNumber
  rw [htake, hdrop]
  obtain ⟨hne, hdigits⟩ := hfraction
  cases fraction with
  | nil => exact absurd rfl hne
  | cons d fraction =>
      simp only [List.cons_append] at htail hbehind ⊢
      simp only [if_pos (hdigits d List.mem_cons_self), htail, hbehind]

/-- What is split off as a number has one of the two forms, and nothing continues it. -/
theorem splitNumber_spells (hc : c.isDigit) (cs : List Char) :
    ((splitNumber c cs).2.1 = false ∧ IsDigits (splitNumber c cs).1 ∧
        Ends .integer (splitNumber c cs).2.2) ∨
      ((splitNumber c cs).2.1 = true ∧
        (∃ whole fraction, (splitNumber c cs).1 = whole ++ '.' :: fraction ∧ IsDigits whole ∧
          IsDigits fraction) ∧
        Ends .decimal (splitNumber c cs).2.2) := by
  obtain ⟨hdigits, hends⟩ := span_holds Char.isDigit cs
  have hwhole : IsDigits (c :: cs.takeWhile Char.isDigit) :=
    ⟨List.cons_ne_nil _ _, List.forall_mem_cons.mpr ⟨hc, hdigits⟩⟩
  unfold splitNumber
  split
  · next d rest hrest =>
      rw [hrest] at hends
      by_cases hd : d.isDigit
      · obtain ⟨hfraction, hbehind⟩ := span_holds Char.isDigit (d :: rest)
        rw [if_pos hd]
        refine .inr ⟨rfl, ⟨_, _, rfl, hwhole, ?_, hfraction⟩, hbehind⟩
        rw [List.takeWhile_cons_of_pos hd]
        exact List.cons_ne_nil _ _
      · rw [if_neg hd]
        refine .inl ⟨rfl, hwhole, hends, fun e more heq => ?_⟩
        cases heq
        exact Bool.eq_false_iff.mpr hd
  · next hpoint =>
      refine .inl ⟨rfl, hwhole, hends, fun d more heq => ?_⟩
      exact absurd heq (hpoint d more)

/-- What is read as a number is one, and nothing continues it. -/
theorem readNumber_spells (h : c.isDigit) (cs : List Char) {found : Classified}
    (hfound : (readNumber c cs).outcome = .ok found) :
    Spells (readNumber c cs).consumed found ∧ Ends found.kind (readNumber c cs).rest := by
  have hsplit := splitNumber_spells h cs
  unfold readNumber at hfound ⊢
  generalize splitNumber c cs = number at hfound hsplit
  obtain ⟨digits, fractional, rest⟩ := number
  cases hvalue : Decimal.ofDigitChars? digits with
  | none =>
      simp only [hvalue] at hfound
      exact nomatch hfound
  | some value =>
      simp only [hvalue] at hfound
      cases hfound
      obtain ⟨rfl, hdigits, hends⟩ |
        ⟨rfl, ⟨whole, fraction, rfl, hwhole, hfraction⟩, hends⟩ := hsplit
      · exact ⟨.integer hdigits hvalue, hends⟩
      · exact ⟨.decimal hwhole hfraction hvalue, hends⟩

theorem readString_spells {found : Classified} (hfound : (readString cs).outcome = .ok found) :
    Spells (readString cs).consumed found ∧ Ends found.kind (readString cs).rest := by
  unfold readString at hfound ⊢
  cases hbody : upToCloser ['"'] false cs with
  | none =>
      simp only [hbody] at hfound
      exact nomatch hfound
  | some cut =>
      obtain ⟨body, rest⟩ := cut
      simp only [hbody] at hfound
      cases hfound
      have hencloses := ((upToCloser_eq_some_iff (List.cons_ne_nil _ _)).mp hbody).2
      have hspells := @Spells.string (String.ofList body)
      rw [String.toList_ofList] at hspells
      exact ⟨hspells hencloses, trivial⟩

theorem readExpression_spells {found : Classified}
    (hfound : (readExpression cs).outcome = .ok found) :
    Spells (readExpression cs).consumed found ∧ Ends found.kind (readExpression cs).rest := by
  unfold readExpression at hfound ⊢
  cases hbody : upToCloser ['}', '}'] false cs with
  | none =>
      simp only [hbody] at hfound
      exact nomatch hfound
  | some cut =>
      obtain ⟨body, rest⟩ := cut
      simp only [hbody] at hfound
      cases hfound
      have hencloses := ((upToCloser_eq_some_iff (List.cons_ne_nil _ _)).mp hbody).2
      exact ⟨.expression hencloses, trivial⟩

theorem readDirective_spells {found : Classified}
    (hfound : (readDirective cs).outcome = .ok found) :
    Spells (readDirective cs).consumed found ∧ Ends found.kind (readDirective cs).rest := by
  unfold readDirective at hfound ⊢
  cases hword : Directive.ofWord? (String.ofList (cs.takeWhile Text.isAlphabetic)) with
  | none =>
      simp only [hword] at hfound
      exact nomatch hfound
  | some directive =>
      simp only [hword] at hfound
      cases hfound
      have hsame : (directive.word == String.ofList (cs.takeWhile Text.isAlphabetic)) = true :=
        List.find?_some (p := fun directive : Directive => directive.word == _) hword
      have hspells := Spells.directive directive
      rw [eq_of_beq hsame, String.toList_ofList] at hspells
      exact ⟨hspells, (span_holds Text.isAlphabetic cs).2⟩

/-! ## Lexemes -/

/-- What is read is a lexeme of the token that is found, and it ends where reading stops. -/
theorem spells_of_readLexeme (h : (readLexeme c cs).outcome = .ok found) :
    Spells (readLexeme c cs).consumed found ∧ Ends found.kind (readLexeme c cs).rest := by
  unfold readLexeme at h ⊢
  split at h
  · exact readString_spells h
  · exact readExpression_spells h
  · exact readDirective_spells h
  · exact nomatch h
  · next _ _ hbrace _ =>
      cases hmark : Punctuation.ofChar? c with
      | some mark =>
          have hchar := ofChar?_eq_some_iff.mp hmark
          simp only [hmark] at h ⊢
          cases h
          subst hchar
          refine ⟨.mark mark, (ends_mark_iff mark).mpr fun hleft hhead => ?_⟩
          obtain ⟨rest, rfl⟩ := List.head?_eq_some_iff.mp hhead
          exact hbrace rest hleft rfl
      | none =>
          simp only [hmark] at h ⊢
          by_cases hword : isWordStart c
          · simp only [if_pos hword] at h ⊢
            exact readWord_spells hword _ h
          · by_cases hdigit : c.isDigit
            · simp only [if_neg hword, if_pos hdigit] at h ⊢
              exact readNumber_spells hdigit _ h
            · simp only [if_neg hword, if_neg hdigit] at h
              exact nomatch h

/-- A lexeme that ends where the text goes on is what the text is read as. -/
theorem readLexeme_of_spells (h : Spells lexeme found) (hends : Ends found.kind rest)
    (htext : c :: cs = lexeme ++ rest) : readLexeme c cs = ⟨.ok found, lexeme, rest⟩ := by
  cases h with
  | mark mark =>
      obtain ⟨rfl, rfl⟩ := List.cons.inj htext
      exact readLexeme_mark hends
  | keyword keyword =>
      have hclass : classifyWord keyword.word = ⟨.keyword keyword, none⟩ := by cases keyword <;> rfl
      rw [← hclass]
      exact readLexeme_word (by cases keyword <;> decide +kernel) hends htext
  | truth value =>
      have hclass : classifyWord (truthWord value) = ⟨.boolean, some (.truth value)⟩ := by
        cases value <;> rfl
      rw [← hclass]
      exact readLexeme_word (by cases value <;> decide +kernel) hends htext
  | @name name hword hfree =>
      have hclass : classifyWord name = ⟨.identifier, some (.text name)⟩ := by
        rw [classifyWord, hfree]
      rw [← hclass]
      exact readLexeme_word hword hends htext
  | directive directive =>
      obtain ⟨rfl, rfl⟩ := List.cons.inj htext
      have hletters : ∀ d ∈ directive.word.toList, Text.isAlphabetic d :=
        List.all_eq_true.mp (by cases directive <;> decide +kernel)
      have hword : Directive.ofWord? directive.word = some directive := by
        cases directive <;> rfl
      obtain ⟨htake, hdrop⟩ := span_exact hletters hends
      show readDirective (directive.word.toList ++ rest) = _
      simp only [readDirective, htake, hdrop, String.ofList_toList, hword]
  | @string raw hbody =>
      rw [List.cons_append, List.append_assoc] at htext
      obtain ⟨rfl, rfl⟩ := List.cons.inj htext
      have hclose : upToCloser ['"'] false (raw.toList ++ (['"'] ++ rest)) =
          some (raw.toList, rest) :=
        (upToCloser_eq_some_iff (List.cons_ne_nil _ _)).mpr ⟨rfl, hbody⟩
      show readString (raw.toList ++ (['"'] ++ rest)) = _
      simp only [readString, hclose, String.ofList_toList]
  | @expression inner hbody =>
      rw [List.cons_append, List.cons_append, List.append_assoc] at htext
      obtain ⟨rfl, rfl⟩ := List.cons.inj htext
      have hclose : upToCloser ['}', '}'] false (inner ++ (['}', '}'] ++ rest)) =
          some (inner, rest) :=
        (upToCloser_eq_some_iff (List.cons_ne_nil _ _)).mpr ⟨rfl, hbody⟩
      show readExpression (inner ++ (['}', '}'] ++ rest)) = _
      rw [readExpression, hclose]
  | @integer _ value hdigits hvalue =>
      obtain ⟨hne, hall⟩ := hdigits
      cases lexeme with
      | nil => exact absurd rfl hne
      | cons d digits =>
          obtain ⟨hd, htail⟩ := List.forall_mem_cons.mp hall
          rw [List.cons_append] at htext
          obtain ⟨rfl, rfl⟩ := List.cons.inj htext
          rw [readLexeme_of_isDigit hd, readNumber, splitNumber_integer htail hends]
          simp only [hvalue]
          rfl
  | @decimal whole fraction value hwhole hfraction hvalue =>
      obtain ⟨hne, hall⟩ := hwhole
      cases whole with
      | nil => exact absurd rfl hne
      | cons d whole =>
          obtain ⟨hd, htail⟩ := List.forall_mem_cons.mp hall
          rw [List.append_assoc, List.cons_append, List.cons_append] at htext
          obtain ⟨rfl, rfl⟩ := List.cons.inj htext
          rw [readLexeme_of_isDigit hd, readNumber, splitNumber_decimal htail hfraction hends]
          simp only [hvalue]
          rfl

/-! ## Lexemes and what separates them -/

theorem ends_nil (kind : TokenKind) : Ends kind [] := by
  unfold Ends
  split <;> simp

/-- Every lexeme ends where trivia begins. -/
theorem ends_of_opensTrivia (kind : TokenKind) (h : opensTrivia c) (rest : List Char) :
    Ends kind (c :: rest) := by
  have hmem := opensTrivia_iff.mp h
  have houtside : ∀ p : Char → Bool, [' ', '\t', '\r', '\n', '/'].any p = false →
      ∀ d ∈ (c :: rest).head?, p d = false := by
    rintro p hp d hd
    cases hd
    exact Bool.eq_false_iff.mpr (List.any_eq_false.mp hp c hmem)
  unfold Ends
  split
  · exact houtside isWordChar (by decide +kernel)
  · exact houtside isWordChar (by decide +kernel)
  · exact houtside isWordChar (by decide +kernel)
  · exact houtside Text.isAlphabetic (by decide +kernel)
  · refine ⟨houtside Char.isDigit (by decide), fun d more heq => ?_⟩
    exact absurd (houtside (· == '.') (by decide) c rfl) (by simp [(List.cons.inj heq).1])
  · exact houtside Char.isDigit (by decide)
  · intro hhead
    exact absurd (houtside (· == '{') (by decide) '{' hhead) (by decide)
  · trivial

theorem ends_of_trivia {gap : List Char} (h : Trivia gap) (hne : gap ≠ []) (kind : TokenKind)
    (rest : List Char) : Ends kind (gap ++ rest) := by
  obtain ⟨c, tail, rfl, hc⟩ := h.head hne
  exact ends_of_opensTrivia kind hc (tail ++ rest)

theorem ends_of_trailingTrivia {final : List Char} (h : TrailingTrivia final) (kind : TokenKind) :
    Ends kind final := by
  cases h with
  | complete h =>
      by_cases hne : final = []
      · subst hne
        exact ends_nil kind
      · have hends := ends_of_trivia h hne kind []
        rwa [List.append_nil] at hends
  | @openComment gap body h _ =>
      by_cases hne : gap = []
      · subst hne
        exact ends_of_opensTrivia kind rfl ('/' :: body)
      · exact ends_of_trivia h hne kind _

theorem opensTrivia_of_readLexeme (h : (readLexeme c cs).outcome = .ok found) :
    opensTrivia c = false := by
  obtain ⟨-, hslash⟩ := ne_of_readLexeme h
  rw [Bool.eq_false_iff]
  intro hopens
  have hmem := opensTrivia_iff.mp hopens
  simp only [List.mem_cons, List.not_mem_nil, or_false] at hmem
  rcases hmem with rfl | rfl | rfl | rfl | rfl
  · exact nomatch h
  · exact nomatch h
  · exact nomatch h
  · exact nomatch h
  · exact hslash rfl

theorem Spells.ne_nil (h : Spells lexeme found) : lexeme ≠ [] := by
  cases h with
  | mark mark => exact List.cons_ne_nil _ _
  | keyword keyword => cases keyword <;> decide
  | truth value => cases value <;> decide
  | name hword _ =>
      intro hnil
      rw [hnil] at hword
      exact hword
  | directive directive => exact List.cons_ne_nil _ _
  | string _ => exact List.cons_ne_nil _ _
  | expression _ => exact List.cons_ne_nil _ _
  | integer hdigits _ => exact hdigits.1
  | decimal _ _ _ => exact List.append_ne_nil_of_right_ne_nil _ (List.cons_ne_nil _ _)

/-- A lexeme alone is read as its token. -/
theorem Spells.read (h : Spells lexeme found) :
    ∃ c cs, lexeme = c :: cs ∧ (readLexeme c cs).outcome = .ok found := by
  obtain ⟨c, cs, rfl⟩ := List.exists_cons_of_ne_nil h.ne_nil
  refine ⟨c, cs, rfl, ?_⟩
  rw [readLexeme_of_spells h (ends_nil _) (List.append_nil _).symm]

/-- No lexeme belongs to two tokens. -/
theorem Spells.unique {other : Classified} (h : Spells lexeme found)
    (hother : Spells lexeme other) : found = other := by
  obtain ⟨c, cs, rfl, hread⟩ := h.read
  obtain ⟨_, _, heq, hreadOther⟩ := hother.read
  cases heq
  exact Except.ok.inj (hread.symm.trans hreadOther)

theorem Spells.kind_ne_endOfFile (h : Spells lexeme found) : found.kind ≠ .endOfFile := by
  obtain ⟨c, cs, rfl, hread⟩ := h.read
  exact Scan.kind_ne_endOfFile hread

/-- No trivia is skipped in front of a lexeme. -/
theorem Spells.skip (h : Spells lexeme found) (rest : List Char) :
    skipTrivia (lexeme ++ rest) = ([], lexeme ++ rest) := by
  obtain ⟨c, cs, rfl, hread⟩ := h.read
  exact skipTrivia_of_not_opensTrivia (opensTrivia_of_readLexeme hread) (cs ++ rest)

end Scan

end RecordFlow
