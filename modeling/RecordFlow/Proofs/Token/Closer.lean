/-
# Moving a scanner up to a closer

The inside of a string or an expression is cut out of the text in one go. A scanner gets there by
moving on one character at a time, with a flag for escaping. It stops at the first place where a
closer begins behind an even number of backslashes, counted from where it set out, and leaves that
closer behind. Line and column are those of the characters that it passed. If there is no such
place, it goes to the end of the text. Strings and expressions are read in this way.
-/

import RecordFlow.Proofs.Token.Escaped
import RecordFlow.Proofs.Token.Partition
import RecordFlow.Proofs.Token.Trivia

namespace RecordFlow

namespace Scan

/-- The two ways in which a text is enclosed. -/
inductive Delimiter
  | quote
  | braces

namespace Delimiter

/-- The characters in front of the text. -/
def opening : Delimiter → List Char
  | quote => ['"']
  | braces => ['{', '{']

/-- The characters behind the text. -/
def closer : Delimiter → List Char
  | quote => ['"']
  | braces => ['}', '}']

/-- What the enclosed text is. -/
def classify : Delimiter → List Char → Classified
  | quote, text => ⟨.string, some (.text (String.ofList text))⟩
  | braces, text => ⟨.expression, some (.text (String.ofList (Text.trim text)))⟩

/-- What is wrong when there is no closer. -/
def fault : Delimiter → LexFault
  | quote => .unterminatedString
  | braces => .unterminatedExpression

theorem closer_ne_nil (d : Delimiter) : d.closer ≠ [] := by
  cases d <;> exact List.cons_ne_nil _ _

end Delimiter

/-- A closer begins at the place `j` of a text, and the number of backslashes in front of it is
even, where those before the place `i` do not count. -/
structure ClosesAt (closer input : List Char) (i j : Nat) : Prop where
  le : i ≤ j
  begins : closer <+: input.drop j
  even : backslashes (input.extract i j) % 2 = 0

section ClosesAt

variable {closer input before after : List Char} {i j : Nat}

theorem isEscaped_eq_false_iff {text : List Char} :
    isEscaped text = false ↔ backslashes text % 2 = 0 := by
  rw [isEscaped, beq_eq_false_iff_ne]
  omega

theorem extract_append (h : input.drop i = before ++ after) :
    input.extract i (i + before.length) = before := by
  rw [List.extract_eq_take_drop, h, Nat.add_sub_cancel_left, List.take_left]

/-- A place is given by what stands between `i` and it. -/
theorem closesAt_iff (hcloser : closer ≠ []) :
    ClosesAt closer input i j ↔
      ∃ before after, input.drop i = before ++ (closer ++ after) ∧ j = i + before.length ∧
        isEscaped before = false := by
  constructor
  · rintro ⟨hle, ⟨after, hafter⟩, heven⟩
    have hlt : j < input.length := by
      refine Decidable.byContradiction fun hlt => ?_
      rw [List.drop_eq_nil_of_le (by omega)] at hafter
      exact hcloser (List.append_eq_nil_iff.mp hafter).1
    refine ⟨input.extract i j, after, ?_, ?_, isEscaped_eq_false_iff.mpr heven⟩
    · have hsplit := List.take_append_drop (j - i) (input.drop i)
      rw [List.drop_drop, Nat.add_sub_of_le hle, ← hafter] at hsplit
      rw [List.extract_eq_take_drop, hsplit]
    · rw [List.extract_eq_take_drop, List.length_take, List.length_drop]
      omega
  · rintro ⟨before, after, hdrop, rfl, hfree⟩
    refine ⟨Nat.le_add_right _ _, ⟨after, ?_⟩, ?_⟩
    · rw [← List.drop_drop, hdrop, List.drop_left]
    · rw [extract_append hdrop]
      exact isEscaped_eq_false_iff.mp hfree

/-- The cut is in front of the first place that closes. -/
theorem closesAt_of_upToCloser {text : List Char} (hcloser : closer ≠ [])
    (h : upToCloser closer false (input.drop i) = some (text, after)) :
    ClosesAt closer input i (i + text.length) ∧
      ∀ k, ClosesAt closer input i k → i + text.length ≤ k := by
  rw [← isEscaped_nil, upToCloser_behind_iff hcloser] at h
  obtain ⟨hdrop, hfree, hguarded⟩ := h
  refine ⟨(closesAt_iff hcloser).mpr ⟨text, after, hdrop, rfl, hfree⟩, fun k hk => ?_⟩
  obtain ⟨before, behind, hother, rfl, hopen⟩ := (closesAt_iff hcloser).mp hk
  rcases List.append_eq_append_iff.mp (hdrop.symm.trans hother) with
    ⟨more, rfl, -⟩ | ⟨inner, rfl, hinner⟩
  · rw [List.length_append]
    omega
  · by_cases hne : inner = []
    · simp [hne]
    · have hescaped := hguarded before inner rfl hne ⟨behind, hinner⟩
      rw [List.nil_append, hopen] at hescaped
      exact nomatch hescaped

theorem exists_closesAt_iff (hcloser : closer ≠ []) :
    (∃ j, ClosesAt closer input i j) ↔ (upToCloser closer false (input.drop i)).isSome := by
  constructor
  · rintro ⟨j, hj⟩
    rw [Option.isSome_iff_ne_none]
    intro hnone
    obtain ⟨before, after, hdrop, -, hfree⟩ := (closesAt_iff hcloser).mp hj
    have hescaped := (upToCloser_eq_none_iff hcloser).mp hnone before after hdrop
    rw [hfree] at hescaped
    exact nomatch hescaped
  · intro h
    obtain ⟨⟨text, after⟩, hcut⟩ := Option.isSome_iff_exists.mp h
    exact ⟨_, (closesAt_of_upToCloser hcloser hcut).1⟩

end ClosesAt

end Scan

namespace Scanner

open Scan

/-- The scanner behind its first character. -/
def advance (s : Scanner) : Scanner :=
  match s.rest with
  | [] => s
  | c :: rest => { s with rest := rest, position := s.position.next c }

theorem length_advance_lt {s : Scanner} (h : s.rest ≠ []) :
    s.advance.rest.length < s.rest.length := by
  obtain ⟨rest, position, stopped⟩ := s
  cases rest with
  | nil => exact absurd rfl h
  | cons c rest => exact Nat.lt_succ_self _

/-- Move on up to the first closer that is not escaped, and past it. The flag tells whether the next
character is escaped. The text is what was passed on the way. -/
def readUpTo (closer : List Char) (escaped : Bool) (s : Scanner) : Option (List Char) × Scanner :=
  match h : s.rest with
  | [] => (none, s)
  | c :: _ =>
      if !escaped && closer.isPrefixOf s.rest then
        (some [], closer.foldl (fun behind _ => behind.advance) s)
      else
        have := length_advance_lt (h ▸ List.cons_ne_nil _ _ : s.rest ≠ [])
        let (text?, behind) := s.advance.readUpTo closer (c == '\\' && !escaped)
        (text?.map (c :: ·), behind)
termination_by s.rest.length

variable {position : Position} {stopped : Bool}

theorem foldl_advance (cs rest : List Char) (position : Position) (stopped : Bool) :
    cs.foldl (fun (behind : Scanner) _ => behind.advance) ⟨cs ++ rest, position, stopped⟩ =
      ⟨rest, position.after cs, stopped⟩ := by
  induction cs generalizing position with
  | nil => rfl
  | cons c cs ih => exact ih (position.next c)

/-- One character at a time gives what the cut gives. -/
theorem readUpTo_eq (closer : List Char) (escaped : Bool) (cs : List Char) (position : Position)
    (stopped : Bool) :
    (⟨cs, position, stopped⟩ : Scanner).readUpTo closer escaped =
      match upToCloser closer escaped cs with
      | some (text, after) => (some text, ⟨after, position.after (text ++ closer), stopped⟩)
      | none => (none, ⟨[], position.after cs, stopped⟩) := by
  induction cs generalizing escaped position with
  | nil =>
      rw [readUpTo, upToCloser]
      rfl
  | cons c rest ih =>
      rw [readUpTo, upToCloser]
      by_cases hclose : (!escaped && closer.isPrefixOf (c :: rest)) = true
      · obtain ⟨after, hafter⟩ :=
          List.isPrefixOf_iff_prefix.mp (Bool.and_eq_true_iff.mp hclose).2
        simp only [if_pos hclose]
        rw [← hafter, foldl_advance, List.drop_left]
        rfl
      · simp only [if_neg hclose, advance, ih]
        cases upToCloser closer (c == '\\' && !escaped) rest <;> rfl

/-- What is passed is the text in front of what is left, and moves line and column. -/
theorem position_readUpTo (closer : List Char) (escaped : Bool) (cs : List Char)
    (position : Position) (stopped : Bool) {passed : List Char}
    (h : cs = passed ++ ((⟨cs, position, stopped⟩ : Scanner).readUpTo closer escaped).2.rest) :
    ((⟨cs, position, stopped⟩ : Scanner).readUpTo closer escaped).2.position =
      position.after passed := by
  rw [readUpTo_eq] at h ⊢
  cases hcut : upToCloser closer escaped cs with
  | none =>
      rw [hcut] at h
      simp only [List.append_nil] at h
      rw [h]
  | some cut =>
      obtain ⟨text, after⟩ := cut
      rw [hcut, ← upToCloser_append hcut, ← List.append_assoc] at h
      exact congrArg position.after (List.append_cancel_right h)

/-- The token for an enclosed text, or the fault of one that is not closed. -/
def enclosed (d : Delimiter) (start : Position) (found : Option (List Char) × Scanner) :
    Except LexError Token × Scanner :=
  match found.1 with
  | some text => (.ok ⟨(d.classify text).kind, (d.classify text).value, start⟩, found.2)
  | none => (.error ⟨d.fault, start⟩, found.2)

/-- In front of an opening, a scanner reads its token by moving up to the closer. -/
theorem token_of_opening (d : Delimiter) (cs : List Char) (start : Position) (stopped : Bool) :
    (⟨d.opening ++ cs, start, stopped⟩ : Scanner).token =
      enclosed d start
        ((⟨cs, start.after d.opening, stopped⟩ : Scanner).readUpTo d.closer false) := by
  rw [readUpTo_eq]
  cases d with
  | quote =>
      have hskip : skipTrivia ('"' :: cs) = ([], '"' :: cs) := skipTrivia_of_none rfl
      simp only [Delimiter.opening, Delimiter.closer, List.cons_append, List.nil_append, token,
        hskip, readLexeme, readString]
      cases upToCloser ['"'] false cs <;> rfl
  | braces =>
      have hskip : skipTrivia ('{' :: '{' :: cs) = ([], '{' :: '{' :: cs) := skipTrivia_of_none rfl
      simp only [Delimiter.opening, Delimiter.closer, List.cons_append, List.nil_append, token,
        hskip, readLexeme, readExpression]
      cases upToCloser ['}', '}'] false cs <;> rfl

end Scanner

/-- A scanner at any place of any text, with either closer. Moving up to the closer gives a text if
and only if, at that place or behind it, a closer begins behind an even number of backslashes. The
text then runs up to the first such closer, and the scanner stands just behind it. Otherwise it
stands at the end of the text. Either way it is moved down by the line breaks that it passed, and
right by the characters behind the last of them. The tokens for strings and expressions are read by
moving so from behind their openings. -/
theorem readUpTo_even_backslashes (d : Scan.Delimiter) (input : List Char) (i : Nat)
    (position : Position) (stopped : Bool) :
    let found := (⟨input.drop i, position, stopped⟩ : Scanner).readUpTo d.closer false
    (found.1.isSome ↔ ∃ j, Scan.ClosesAt d.closer input i j) ∧
      (∀ text, found.1 = some text →
        ∃ j, Scan.ClosesAt d.closer input i j ∧
          (∀ k, Scan.ClosesAt d.closer input i k → j ≤ k) ∧
          text = input.extract i j ∧
          found.2 = ⟨input.drop (j + d.closer.length),
            position.after (input.extract i (j + d.closer.length)), stopped⟩) ∧
      (found.1 = none → found.2 = ⟨[], position.after (input.drop i), stopped⟩) ∧
      (∀ passed, input.drop i = passed ++ found.2.rest →
        found.2.position = ⟨position.line + passed.count '\n',
          if '\n' ∈ passed then 1 + (passed.reverse.takeWhile (· != '\n')).length
          else position.column + passed.length⟩) ∧
      ∀ start, (⟨d.opening ++ input.drop i, start, stopped⟩ : Scanner).token =
        Scanner.enclosed d start
          ((⟨input.drop i, start.after d.opening, stopped⟩ : Scanner).readUpTo d.closer false) := by
  intro found
  have hfound : found = _ := Scanner.readUpTo_eq d.closer false (input.drop i) position stopped
  have hcloser := d.closer_ne_nil
  have hplace : ∀ passed, input.drop i = passed ++ found.2.rest → found.2.position = _ :=
    fun passed hpassed => (Scanner.position_readUpTo _ _ _ _ _ hpassed).trans
      (position.after_eq passed)
  refine ⟨?_, ?_, ?_, hplace, fun start => Scanner.token_of_opening d (input.drop i) start stopped⟩
  all_goals rw [hfound]
  · rw [Scan.exists_closesAt_iff hcloser]
    cases Scan.upToCloser d.closer false (input.drop i) <;> rfl
  · cases hcut : Scan.upToCloser d.closer false (input.drop i) with
    | none => exact nofun
    | some cut =>
        obtain ⟨text, after⟩ := cut
        rintro _ ⟨⟩
        obtain ⟨hcloses, hleast⟩ := Scan.closesAt_of_upToCloser hcloser hcut
        have hdrop := (Scan.upToCloser_append hcut).symm
        have hall : input.drop i = (text ++ d.closer) ++ after := by rw [hdrop, List.append_assoc]
        refine ⟨i + text.length, hcloses, hleast, (Scan.extract_append hdrop).symm, ?_⟩
        have hend : i + text.length + d.closer.length = i + (text ++ d.closer).length := by
          rw [List.length_append, Nat.add_assoc]
        rw [hend, Scan.extract_append hall, ← List.drop_drop, hall, List.drop_left]
  · cases Scan.upToCloser d.closer false (input.drop i) with
    | none => exact fun _ => rfl
    | some cut => exact nofun

/-- A string over two lines with a quote in it that is escaped, from the middle of a line on. -/
theorem readUpTo_even_backslashes_two_lines :
    let input := "a\\\"b\nc\"d".toList
    let closer := Scan.Delimiter.quote.closer
    let found := (⟨input.drop 0, ⟨3, 5⟩, false⟩ : Scanner).readUpTo closer false
    found.1 = some "a\\\"b\nc".toList ∧ found.2.rest = ['d'] ∧ found.2.position = ⟨4, 3⟩ ∧
      Scan.ClosesAt closer input 0 6 := by
  intro input closer found
  have htext : found.1 = some "a\\\"b\nc".toList := by decide +kernel
  have hrest : found.2.rest = ['d'] := by decide +kernel
  obtain ⟨-, hcloses, -, hplace, -⟩ := readUpTo_even_backslashes .quote input 0 ⟨3, 5⟩ false
  obtain ⟨j, hj, -, hextract, -⟩ := hcloses _ htext
  obtain rfl : j = 6 := by
    have hlength := congrArg List.length hextract
    simp [List.extract_eq_take_drop, input] at hlength
    omega
  have hposition := hplace (input.take 7) (by rw [hrest]; decide)
  exact ⟨htext, hrest, hposition, hj⟩

end RecordFlow
