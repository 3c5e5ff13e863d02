/-
# Line breaks are boundaries

A text that can be scanned to its end and has a line break behind it is scanned as if it stood
alone: no lexeme and no comment in it takes anything from the text that follows. Words, numbers,
directives and line comments stop at the line break. Strings, expressions and block comments run
over line breaks, but they are closed where the text can be scanned, and what follows a closer does
not move it.
-/

import RecordFlow.Token.Scanner

namespace RecordFlow

namespace Scan

variable {c : Char} {cs ds rest : List Char} {found : Classified}

/-- A line break stands where the two texts meet. -/
def Apart (cs ds : List Char) : Prop := cs.getLast? = some '\n' ∨ ds.head? = some '\n'

/-- An end of the first text is as far from the second one. -/
theorem Apart.of_append {xs : List Char} (h : Apart (xs ++ cs) ds) (hcs : cs ≠ []) :
    Apart cs ds := by
  rcases h with hlast | hhead
  · left
    obtain ⟨front, last, rfl⟩ := (List.eq_nil_or_concat cs).resolve_left hcs
    rw [List.concat_eq_append, ← List.append_assoc, List.getLast?_concat] at hlast
    rw [List.concat_eq_append, List.getLast?_concat, hlast]
  · exact .inr hhead

/-- Only the line break itself may not be taken away. -/
theorem Apart.tail (h : Apart (c :: cs) ds) (hc : c ≠ '\n') : Apart cs ds := by
  cases cs with
  | cons d cs =>
      rw [← List.singleton_append] at h
      exact h.of_append (List.cons_ne_nil d cs)
  | nil =>
      rcases h with hlast | hhead
      · exact absurd (Option.some.inj hlast) hc
      · exact .inr hhead

/-- The second text does not begin with any other character where the first one is empty. -/
theorem Apart.head?_append_ne (h : Apart cs ds) (hc : c ≠ '\n') (hcs : cs.head? ≠ some c) :
    (cs ++ ds).head? ≠ some c := by
  rcases cs with _ | ⟨d, cs⟩
  · rw [List.nil_append, h.resolve_left nofun]
    exact fun heq => hc (Option.some.inj heq).symm
  · exact hcs

section Runs

variable {p : Char → Bool}

theorem Apart.dropWhile (h : Apart cs ds) (hp : p '\n' = false) : Apart (cs.dropWhile p) ds := by
  induction cs with
  | nil => exact h
  | cons c cs ih =>
      by_cases hc : p c
      · rw [List.dropWhile_cons_of_pos hc]
        exact ih (h.tail fun heq => by simp [heq, hp] at hc)
      · rw [List.dropWhile_cons_of_neg hc]
        exact h

/-- A run of characters that excludes line breaks ends where the texts meet at the latest. -/
theorem span_append (h : Apart cs ds) (hp : p '\n' = false) :
    (cs ++ ds).takeWhile p = cs.takeWhile p ∧ (cs ++ ds).dropWhile p = cs.dropWhile p ++ ds := by
  induction cs with
  | nil =>
      rcases h with hlast | hhead
      · exact nomatch hlast
      · obtain ⟨rest, rfl⟩ := List.head?_eq_some_iff.mp hhead
        simp [hp]
  | cons c cs ih =>
      by_cases hc : p c
      · obtain ⟨htake, hdrop⟩ := ih (h.tail fun heq => by simp [heq, hp] at hc)
        simp [hc, htake, hdrop]
      · simp [hc]

end Runs

/-- What follows a closer does not move it. -/
theorem upToCloser_of_append {closer : List Char} {escaped : Bool} {body after : List Char}
    (h : upToCloser closer escaped cs = some (body, after)) (ds : List Char) :
    upToCloser closer escaped (cs ++ ds) = some (body, after ++ ds) := by
  induction cs generalizing escaped body with
  | nil => exact nomatch h
  | cons c cs ih =>
      rw [upToCloser] at h
      rw [List.cons_append, upToCloser]
      by_cases hclose : (!escaped && closer.isPrefixOf (c :: cs)) = true
      · rw [if_pos hclose] at h
        cases h
        obtain ⟨hfree, hclose⟩ := Bool.and_eq_true_iff.mp hclose
        have hbegins := List.isPrefixOf_iff_prefix.mp hclose
        have hlonger : closer.isPrefixOf (c :: (cs ++ ds)) :=
          List.isPrefixOf_iff_prefix.mpr (hbegins.trans (List.prefix_append (c :: cs) ds))
        rw [if_pos (by rw [hfree, hlonger]; rfl), ← List.cons_append,
          List.drop_append_of_le_length hbegins.length_le]
      · rw [if_neg hclose] at h
        obtain ⟨⟨inner, _⟩, hinner, heq⟩ := Option.map_eq_some_iff.mp h
        cases heq
        -- The closer stands in `cs`, so it is too short to reach from here into `ds`.
        have hlength : closer.length ≤ (c :: cs).length := by
          have := congrArg List.length (upToCloser_append hinner)
          simp only [List.length_append, List.length_cons] at this ⊢
          omega
        have hopen : ¬(!escaped && closer.isPrefixOf (c :: (cs ++ ds))) = true := by
          intro hboth
          obtain ⟨hfree, hlonger⟩ := Bool.and_eq_true_iff.mp hboth
          have hbegins := List.isPrefixOf_iff_prefix.mp hlonger
          refine hclose (Bool.and_eq_true_iff.mpr ⟨hfree, List.isPrefixOf_iff_prefix.mpr ?_⟩)
          exact List.prefix_of_prefix_length_le hbegins (List.prefix_append (c :: cs) ds) hlength
        rw [if_neg hopen, ih hinner]
        rfl

theorem throughCommentEnd_of_append {body after : List Char}
    (h : throughCommentEnd cs = some (body, after)) (ds : List Char) :
    throughCommentEnd (cs ++ ds) = some (body, after ++ ds) := by
  fun_induction throughCommentEnd cs generalizing body after with
  | case1 => cases h
  | case2 rest =>
      cases h
      rfl
  | case3 c rest hopen ih =>
      obtain ⟨⟨inner, _⟩, hinner, heq⟩ := Option.map_eq_some_iff.mp h
      cases heq
      have hstill : ∀ tail, c = '*' → rest ++ ds = '/' :: tail → False := by
        intro tail hc hrest
        cases rest with
        | nil => cases hinner
        | cons d rest =>
            cases hrest
            exact hopen rest hc rfl
      rw [List.cons_append, throughCommentEnd.eq_3 _ _ hstill, ih hinner]
      rfl

/-! ## Lexemes -/

/-- A reading in front of more text. -/
def Reading.before (r : Reading) (ds : List Char) : Reading := { r with rest := r.rest ++ ds }

theorem readWord_append (c : Char) (h : Apart cs ds) :
    readWord c (cs ++ ds) = (readWord c cs).before ds := by
  obtain ⟨htake, hdrop⟩ := span_append (p := isWordChar) h (by decide +kernel)
  simp only [readWord, Reading.before, htake, hdrop]

theorem readDirective_append (h : Apart cs ds) :
    readDirective (cs ++ ds) = (readDirective cs).before ds := by
  obtain ⟨htake, hdrop⟩ := span_append (p := Text.isAlphabetic) h (by decide +kernel)
  simp only [readDirective, Reading.before, htake, hdrop]

theorem splitNumber_of_append (c : Char) (h : Apart cs ds) :
    splitNumber c (cs ++ ds) =
      ((splitNumber c cs).1, (splitNumber c cs).2.1, (splitNumber c cs).2.2 ++ ds) := by
  have hdigit : Char.isDigit '\n' = false := rfl
  obtain ⟨htake, hdrop⟩ := span_append h hdigit
  have hapart := h.dropWhile hdigit
  simp only [splitNumber, htake, hdrop]
  generalize cs.dropWhile Char.isDigit = behind at hapart
  rcases behind with _ | ⟨x, behind⟩
  · obtain ⟨more, rfl⟩ := List.head?_eq_some_iff.mp (hapart.resolve_left nofun)
    rfl
  · by_cases hx : x = '.'
    · subst hx
      have hafter := hapart.tail (by decide)
      rcases behind with _ | ⟨d, behind⟩
      · obtain ⟨more, rfl⟩ := List.head?_eq_some_iff.mp (hafter.resolve_left nofun)
        rfl
      · obtain ⟨htake, hdrop⟩ := span_append hafter hdigit
        rw [List.cons_append] at htake hdrop
        by_cases hd : d.isDigit
        · simp only [List.cons_append, if_pos hd, htake, hdrop]
        · simp only [List.cons_append, if_neg hd]
    · simp [hx]

theorem readNumber_append (c : Char) (h : Apart cs ds) :
    readNumber c (cs ++ ds) = (readNumber c cs).before ds := by
  simp only [readNumber, splitNumber_of_append c h, Reading.before]

theorem readString_append (h : (readString cs).outcome = .ok found) :
    readString (cs ++ ds) = (readString cs).before ds := by
  unfold readString at h ⊢
  cases hbody : upToCloser ['"'] false cs with
  | none =>
      rw [hbody] at h
      exact nomatch h
  | some split =>
      rw [upToCloser_of_append hbody]
      rfl

theorem readExpression_append (h : (readExpression cs).outcome = .ok found) :
    readExpression (cs ++ ds) = (readExpression cs).before ds := by
  unfold readExpression at h ⊢
  cases hbody : upToCloser ['}', '}'] false cs with
  | none =>
      rw [hbody] at h
      exact nomatch h
  | some split =>
      rw [upToCloser_of_append hbody]
      rfl

/-- Whatever begins no string, no expression, no directive and no comment is read by its first
character. -/
theorem readLexeme_plain (hquote : c ≠ '"') (hsign : c ≠ '#')
    (hbrace : c = '{' → cs.head? ≠ some '{') (hcomment : c = '/' → cs.head? ≠ some '*') :
    readLexeme c cs =
      match Punctuation.ofChar? c with
      | some mark => ⟨.ok ⟨.punctuation mark, none⟩, [c], cs⟩
      | none =>
          if isWordStart c then readWord c cs
          else if c.isDigit then readNumber c cs
          else ⟨.error (.unexpectedCharacter c), [], c :: cs⟩ := by
  unfold readLexeme
  split
  · exact absurd rfl hquote
  · exact absurd rfl (hbrace rfl)
  · exact absurd rfl hsign
  · exact absurd rfl (hcomment rfl)
  · rfl

/-- No lexeme begins with a line break or with a slash. -/
theorem ne_of_readLexeme (h : (readLexeme c cs).outcome = .ok found) : c ≠ '\n' ∧ c ≠ '/' := by
  constructor
  · rintro rfl
    exact nomatch h
  · rintro rfl
    rcases cs with _ | ⟨d, cs⟩
    · exact nomatch h
    · by_cases hd : d = '*'
      · subst hd
        exact nomatch h
      · have hcomment : (d :: cs).head? ≠ some '*' := fun heq => hd (Option.some.inj heq)
        rw [readLexeme_plain (by decide) (by decide) (absurd · (by decide)) fun _ => hcomment] at h
        exact nomatch h

/-- A lexeme that can be read is read as if the text behind the line break were not there. -/
theorem readLexeme_of_append (h : (readLexeme c cs).outcome = .ok found)
    (hapart : Apart (c :: cs) ds) :
    readLexeme c (cs ++ ds) = (readLexeme c cs).before ds := by
  obtain ⟨hbreak, hslash⟩ := ne_of_readLexeme h
  have hafter := hapart.tail hbreak
  by_cases hquote : c = '"'
  · subst hquote
    exact readString_append h
  by_cases hsign : c = '#'
  · subst hsign
    exact readDirective_append hafter
  by_cases hbrace : c = '{' ∧ cs.head? = some '{'
  · obtain ⟨rfl, hhead⟩ := hbrace
    obtain ⟨cs, rfl⟩ := List.head?_eq_some_iff.mp hhead
    exact readExpression_append h
  have hopen : c = '{' → cs.head? ≠ some '{' := fun hc hhead => hbrace ⟨hc, hhead⟩
  have hplain := readLexeme_plain hquote hsign hopen (absurd · hslash)
  rw [readLexeme_plain hquote hsign (hafter.head?_append_ne (by decide) <| hopen ·)
    (absurd · hslash)]
  rw [hplain] at h ⊢
  cases hmark : Punctuation.ofChar? c with
  | some mark => rfl
  | none =>
      by_cases hword : isWordStart c
      · simp only [if_pos hword]
        exact readWord_append c hafter
      · by_cases hdigit : c.isDigit
        · simp only [if_neg hword, if_pos hdigit]
          exact readNumber_append c hafter
        · simp only [hmark, if_neg hword, if_neg hdigit] at h
          exact nomatch h

theorem classifyWord_kind_ne_endOfFile (word : String) :
    (classifyWord word).kind ≠ .endOfFile := by
  unfold classifyWord TokenKind.ofWord?
  by_cases htruth : word = "true" ∨ word = "false"
  · rw [if_pos htruth]
    exact nofun
  · rw [if_neg htruth]
    cases Keyword.ofWord? word with
    | none => exact nofun
    | some keyword => exact nofun

/-- No lexeme marks the end of the text. -/
theorem kind_ne_endOfFile (h : (readLexeme c cs).outcome = .ok found) :
    found.kind ≠ .endOfFile := by
  unfold readLexeme at h
  split at h
  · unfold readString at h
    split at h <;> cases h
    exact nofun
  · unfold readExpression at h
    split at h <;> cases h
    exact nofun
  · unfold readDirective at h
    dsimp only at h
    split at h <;> cases h
    exact nofun
  · exact nomatch h
  · split at h
    · cases h
      exact nofun
    · split at h
      · cases h
        exact classifyWord_kind_ne_endOfFile _
      · split at h
        · unfold readNumber at h
          dsimp only at h
          split at h <;> cases h
          split <;> exact nofun
        · exact nomatch h

theorem skipTrivia_of_none (h : trivium? cs = none) : skipTrivia cs = ([], cs) := by
  rw [skipTrivia]
  split
  · rfl
  · next hsome => simp [h] at hsome

theorem ne_nil_of_skipTrivia (h : (skipTrivia cs).2 = c :: rest) : cs ≠ [] := by
  rintro rfl
  have hnil : skipTrivia [] = ([], []) := skipTrivia_of_none rfl
  exact nomatch h.symm.trans (congrArg Prod.snd hnil)

theorem skipTrivia_of_some {piece : List Char} (h : trivium? cs = some (piece, rest)) :
    skipTrivia cs = (piece ++ (skipTrivia rest).1, (skipTrivia rest).2) := by
  rw [skipTrivia]
  split
  · next hnone => simp [h] at hnone
  · next hsome =>
      rw [h] at hsome
      cases hsome
      rfl

/-- Unless a text begins with a slash, its first character tells whether it begins with trivia. -/
theorem trivium?_cons (hc : c ≠ '/') (cs : List Char) :
    trivium? (c :: cs) = if isSeparator c then some ([c], cs) else none := by
  unfold trivium?
  split
  · next heq => exact absurd (List.cons.inj heq).1 hc
  · next heq => exact absurd (List.cons.inj heq).1 hc
  · next heq =>
      cases heq
      rfl
  · next heq => exact nomatch heq

theorem trivium?_of_append {piece : List Char} (h : trivium? cs = some (piece, rest))
    (hapart : Apart cs ds) : trivium? (cs ++ ds) = some (piece, rest ++ ds) := by
  unfold trivium? at h
  split at h
  · next cs =>
      cases h
      have hcomment := (hapart.tail (by decide)).tail (by decide)
      obtain ⟨htake, hdrop⟩ := span_append (p := (· != '\n')) hcomment (by decide)
      simp [trivium?, htake, hdrop]
  · next cs =>
      obtain ⟨⟨body, after⟩, hbody, heq⟩ := Option.map_eq_some_iff.mp h
      cases heq
      simp [trivium?, throughCommentEnd_of_append hbody]
  · next c cs hline hblock =>
      by_cases hseparator : isSeparator c
      · rw [if_pos hseparator] at h
        cases h
        have hslash : c ≠ '/' := by
          rintro rfl
          exact nomatch hseparator
        rw [List.cons_append, trivium?_cons hslash, if_pos hseparator]
      · rw [if_neg hseparator] at h
        exact nomatch h
  · exact nomatch h

/-- Where nothing but trivia is left in front of a line break, skipping goes on behind it. -/
theorem skipTrivia_of_append_nil (h : (skipTrivia cs).2 = []) (hapart : cs ≠ [] → Apart cs ds) :
    skipTrivia (cs ++ ds) = (cs ++ (skipTrivia ds).1, (skipTrivia ds).2) := by
  fun_induction skipTrivia cs with
  | case1 cs hnone =>
      cases h
      rfl
  | case2 cs piece rest htrivium _ more ih =>
      have hcs : piece ++ rest = cs := trivium?_append htrivium
      have hne : cs ≠ [] := by
        rintro rfl
        cases htrivium
      have hrest : rest ≠ [] → Apart rest ds := fun hrest =>
        Apart.of_append (hcs ▸ hapart hne) hrest
      rw [skipTrivia_of_some (trivium?_of_append htrivium (hapart hne)), ih h hrest, ← hcs,
        List.append_assoc]

/-- Where a lexeme follows the trivia, skipping stops in front of it. -/
theorem skipTrivia_of_append_cons (h : (skipTrivia cs).2 = c :: rest)
    (hread : (readLexeme c rest).outcome = .ok found) (hapart : Apart cs ds) :
    skipTrivia (cs ++ ds) = ((skipTrivia cs).1, c :: (rest ++ ds)) := by
  fun_induction skipTrivia cs with
  | case1 cs hnone =>
      cases h
      -- Text behind could add trivia only by ending a comment, and a comment begins with a slash.
      have hslash := (ne_of_readLexeme hread).2
      rw [trivium?_cons hslash] at hnone
      rw [List.cons_append, skipTrivia_of_none]
      rw [trivium?_cons hslash]
      split at hnone
      · cases hnone
      · next hseparator => exact if_neg hseparator
  | case2 cs piece rest' htrivium _ more ih =>
      have hcs : piece ++ rest' = cs := trivium?_append htrivium
      have hne : rest' ≠ [] := ne_nil_of_skipTrivia h
      rw [skipTrivia_of_some (trivium?_of_append htrivium hapart),
        ih h (Apart.of_append (hcs ▸ hapart) hne)]

/-! ## Scans -/

/-- A scan that goes on behind other tokens. -/
def Result.behind (ts : List Token) (r : Result) : Result := { r with tokens := ts ++ r.tokens }

variable {position : Position}

/-- What a scan does at the first lexeme. -/
theorem scanFrom_eq (position : Position) (cs : List Char) :
    scanFrom position cs =
      let start := position.after (skipTrivia cs).1
      match (skipTrivia cs).2 with
      | [] => ⟨[.plain .endOfFile start], none, [], start⟩
      | c :: rest =>
          let reading := readLexeme c rest
          let behind := start.after reading.consumed
          match reading.outcome with
          | .ok found => .cons ⟨found.kind, found.value, start⟩ (scanFrom behind reading.rest)
          | .error fault => ⟨[], some ⟨fault, start⟩, reading.rest, behind⟩ := by
  rw [scanFrom]
  split
  · next htext => simp only [htext]
  · next htext =>
      simp only [htext]
      split
      · next hread => simp only [hread]
      · next hread => simp only [hread]

/-- A scan that reaches the end of the text marks it with its last token, and with no other. -/
theorem scanFrom_tokens_eq (h : (scanFrom position cs).error? = none) :
    ∃ front final, (scanFrom position cs).tokens = front ++ [final] ∧
      final.kind = .endOfFile ∧ ∀ t ∈ front, t.kind ≠ .endOfFile := by
  fun_induction scanFrom position cs with
  | case1 position cs htext start =>
      exact ⟨[], .plain .endOfFile start, rfl, rfl, List.forall_mem_nil _⟩
  | case2 position cs c rest htext start behind found hread _ ih =>
      obtain ⟨front, final, htokens, hfinal, hfront⟩ := ih h
      refine ⟨⟨found.kind, found.value, start⟩ :: front, final, ?_, hfinal, ?_⟩
      · simp only [Result.cons, htokens, List.cons_append]
      · exact List.forall_mem_cons.mpr ⟨kind_ne_endOfFile hread, hfront⟩
  | case3 position cs c rest htext start behind fault hread => exact nomatch h

/-- A text that can be scanned is scanned as if the text behind the line break were not there, and
that text is scanned from the place where it begins. -/
theorem scanFrom_append (h : (scanFrom position cs).error? = none)
    (hapart : cs ≠ [] → Apart cs ds) :
    scanFrom position (cs ++ ds) =
      (scanFrom (position.after cs) ds).behind (scanFrom position cs).tokens.dropLast := by
  fun_induction scanFrom position cs with
  | case1 position cs htext start =>
      rw [scanFrom_eq, scanFrom_eq (position.after cs), skipTrivia_of_append_nil htext hapart]
      simp only [Position.after_append]
      rfl
  | case2 position cs c rest htext start behind found hread _ ih =>
      have hcs := hapart (ne_nil_of_skipTrivia htext)
      have hlexeme : Apart (c :: rest) ds := by
        rw [← skipTrivia_append cs, htext] at hcs
        exact hcs.of_append (List.cons_ne_nil c rest)
      have hbehind : (readLexeme c rest).rest ≠ [] → Apart (readLexeme c rest).rest ds := by
        rw [← readLexeme_append c rest] at hlexeme
        exact hlexeme.of_append
      have hskip := skipTrivia_of_append_cons htext hread hcs
      have hplace : position.after cs = behind.after (readLexeme c rest).rest := by
        rw [← Position.after_append, readLexeme_append, ← htext, ← Position.after_append,
          skipTrivia_append]
      rw [scanFrom_eq, hskip]
      simp only [readLexeme_of_append hread hlexeme, Reading.before, hread]
      obtain ⟨front, final, htokens, -, -⟩ := scanFrom_tokens_eq h
      have hne : (scanFrom behind (readLexeme c rest).rest).tokens ≠ [] := by simp [htokens]
      rw [ih h hbehind, hplace]
      simp only [Result.cons, Result.behind, List.dropLast_cons_of_ne_nil hne, List.cons_append]
      rfl
  | case3 position cs c rest htext start behind fault hread => cases h

end Scan

end RecordFlow
