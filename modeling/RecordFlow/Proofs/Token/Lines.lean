/-
# Texts one below the other

Where a text begins at the beginning of a line, scanning it gives the tokens that it has alone,
moved down by the lines above it. Together with the boundary between lines this says how whole lines
are put together: the tokens of the first lines stay where they are, and those of the lines below
follow them, on lines of their own.
-/

import RecordFlow.Proofs.Token.Boundary

namespace RecordFlow

namespace Position

/-- The place `n` lines further down. -/
def lower (n : Nat) (p : Position) : Position := ⟨p.line + n, p.column⟩

theorem next_lower (n : Nat) (p : Position) (c : Char) :
    (p.lower n).next c = (p.next c).lower n := by
  unfold next lower
  split
  · simp [Nat.add_right_comm]
  · rfl

theorem after_lower (n : Nat) (p : Position) (cs : List Char) :
    (p.lower n).after cs = (p.after cs).lower n := by
  induction cs generalizing p with
  | nil => rfl
  | cons c cs ih => rw [after_cons, after_cons, next_lower, ih]

/-- A text moves the place behind it down by its line breaks. -/
theorem line_after (p : Position) (cs : List Char) :
    (p.after cs).line = p.line + cs.count '\n' := by
  induction cs generalizing p with
  | nil => rfl
  | cons c cs ih =>
      rw [after_cons, ih, List.count_cons, next]
      by_cases hc : c = '\n'
      · simp [hc, Nat.add_right_comm, Nat.add_assoc]
      · simp [hc]

/-- Behind whole lines a text begins as it would alone, only further down. -/
theorem after_lines {cs : List Char} (h : ∀ c ∈ cs.getLast?, c = '\n') :
    start.after cs = start.lower (cs.count '\n') := by
  rcases List.eq_nil_or_concat cs with rfl | ⟨front, last, rfl⟩
  · rfl
  · rw [List.concat_eq_append] at h ⊢
    have hlast : last = '\n' := h last List.getLast?_concat
    have hbreak : ∀ p : Position, p.after ['\n'] = ⟨p.line + 1, 1⟩ := fun _ => rfl
    rw [after_append, hlast, hbreak, line_after, List.count_append, Nat.add_assoc]
    rfl

end Position

/-- A token `n` lines further down. -/
def Token.lower (n : Nat) (t : Token) : Token := { t with position := t.position.lower n }

/-- An error `n` lines further down. -/
def LexError.lower (n : Nat) (e : LexError) : LexError := { e with position := e.position.lower n }

namespace Scan

/-- A scan `n` lines further down. -/
def Result.lower (n : Nat) (r : Result) : Result :=
  ⟨r.tokens.map (Token.lower n), r.error?.map (LexError.lower n), r.rest, r.position.lower n⟩

/-- A scan moves down with the place where it begins. -/
theorem scanFrom_lower (n : Nat) (position : Position) (cs : List Char) :
    scanFrom (position.lower n) cs = (scanFrom position cs).lower n := by
  fun_induction scanFrom position cs with
  | case1 position cs htext start =>
      rw [scanFrom_eq]
      simp only [htext, Position.after_lower]
      rfl
  | case2 position cs c rest htext start behind found hread _ ih =>
      rw [scanFrom_eq]
      simp only [htext, hread, Position.after_lower]
      rw [ih]
      rfl
  | case3 position cs c rest htext start behind fault hread =>
      rw [scanFrom_eq]
      simp only [htext, hread, Position.after_lower]
      rfl

/-- Nothing is found above the place where a scan begins. -/
theorem line_le_of_scanFrom (position : Position) (cs : List Char) :
    (∀ t ∈ (scanFrom position cs).tokens, position.line ≤ t.position.line) ∧
      ∀ e ∈ (scanFrom position cs).error?, position.line ≤ e.position.line := by
  have hafter : ∀ (p : Position) (ds : List Char), p.line ≤ (p.after ds).line := by
    intro p ds
    rw [Position.line_after]
    exact Nat.le_add_right _ _
  fun_induction scanFrom position cs with
  | case1 position cs htext start =>
      refine ⟨fun t ht => ?_, fun e he => ?_⟩
      · rw [List.mem_singleton.mp ht]
        exact hafter position _
      · cases he
  | case2 position cs c rest htext start behind found hread _ ih =>
      have hbehind : position.line ≤ behind.line :=
        Nat.le_trans (hafter position _) (hafter start _)
      refine ⟨List.forall_mem_cons.mpr ⟨hafter position _, fun t ht => ?_⟩, fun e he => ?_⟩
      · exact Nat.le_trans hbehind (ih.1 t ht)
      · exact Nat.le_trans hbehind (ih.2 e he)
  | case3 position cs c rest htext start behind fault hread =>
      refine ⟨fun t ht => ?_, fun e he => ?_⟩
      · cases ht
      · cases he
        exact hafter position _

end Scan

/-- A text of whole lines: it is empty or ends with a line break. -/
def Text.WholeLines (text : String) : Prop := ∀ c ∈ text.toList.getLast?, c = '\n'

/-- The number of line breaks of a text. -/
def Text.breaks (text : String) : Nat := text.toList.count '\n'

theorem Text.WholeLines.append {upper below : String} (hupper : WholeLines upper)
    (hbelow : WholeLines below) : WholeLines (upper ++ below) := by
  intro c hc
  rw [String.toList_append, List.getLast?_append] at hc
  cases hlast : below.toList.getLast? with
  | none =>
      rw [hlast] at hc
      exact hupper c hc
  | some last =>
      rw [hlast] at hc
      exact hbelow c (hlast.trans hc)

theorem tokenize_eq_ok_iff {source : String} {ts : List Token} :
    tokenize source = .ok ts ↔
      (Scan.scan source).error? = none ∧ (Scan.scan source).tokens = ts := by
  unfold tokenize
  cases herror : (Scan.scan source).error? with
  | none => simp [herror]
  | some e => simp [herror]

theorem tokenize_eq_error_iff {source : String} {e : LexError} :
    tokenize source = .error e ↔ (Scan.scan source).error? = some e := by
  unfold tokenize
  cases herror : (Scan.scan source).error? with
  | none => simp [herror]
  | some e => simp [herror]

theorem tokenize_empty : tokenize "" = .ok [.plain .endOfFile .start] := by
  have hscan : Scan.scan "" = ⟨[.plain .endOfFile .start], none, [], .start⟩ := by
    have hskip : Scan.skipTrivia "".toList = ([], []) := Scan.skipTrivia_of_none rfl
    rw [Scan.scan, Scan.scanFrom_eq, hskip]
    rfl
  rw [tokenize, hscan]

/-- The last token of a text, and no other, marks its end. -/
theorem tokens_of_tokenize {source : String} {ts : List Token} (h : tokenize source = .ok ts) :
    ∃ front final, ts = front ++ [final] ∧ final.kind = .endOfFile ∧
      ∀ t ∈ front, t.kind ≠ .endOfFile := by
  obtain ⟨herror, rfl⟩ := tokenize_eq_ok_iff.mp h
  exact Scan.scanFrom_tokens_eq herror

/-- Lines are counted from one. -/
theorem line_pos_of_tokenize (source : String) :
    (∀ ts, tokenize source = .ok ts → ∀ t ∈ ts, 0 < t.position.line) ∧
      ∀ e, tokenize source = .error e → 0 < e.position.line := by
  obtain ⟨htokens, herrors⟩ := Scan.line_le_of_scanFrom .start source.toList
  refine ⟨fun ts h => ?_, fun e h => herrors e (tokenize_eq_error_iff.mp h)⟩
  obtain ⟨-, rfl⟩ := tokenize_eq_ok_iff.mp h
  exact htokens

/-- Text below whole lines gives the tokens that it has alone, moved down by these lines. -/
theorem tokenize_append {upper below : String} {ts : List Token} (h : tokenize upper = .ok ts)
    (hlines : Text.WholeLines upper) :
    tokenize (upper ++ below) =
      match tokenize below with
      | .ok us => .ok (ts.dropLast ++ us.map (Token.lower (Text.breaks upper)))
      | .error e => .error (e.lower (Text.breaks upper)) := by
  obtain ⟨herror, rfl⟩ := tokenize_eq_ok_iff.mp h
  have hapart : upper.toList ≠ [] → Scan.Apart upper.toList below.toList := by
    intro hne
    obtain ⟨front, last, hupper⟩ := (List.eq_nil_or_concat upper.toList).resolve_left hne
    have hlast : upper.toList.getLast? = some last := by simp [hupper]
    exact .inl (by rw [hlast, hlines last hlast])
  have hscan : Scan.scan (upper ++ below) =
      ((Scan.scan below).lower (Text.breaks upper)).behind (Scan.scan upper).tokens.dropLast := by
    rw [Scan.scan, String.toList_append, Scan.scanFrom_append herror hapart,
      Position.after_lines hlines, Scan.scanFrom_lower]
    rfl
  unfold tokenize
  cases hbelow : (Scan.scan below).error? with
  | none => simp [hscan, hbelow, Scan.Result.behind, Scan.Result.lower]
  | some e => simp [hscan, hbelow, Scan.Result.behind, Scan.Result.lower]

/-! ## Any text and a line break -/

/-- A line break makes whole lines of any text. -/
theorem Text.wholeLines_break (text : String) : WholeLines (text ++ "\n") := by
  intro c hc
  rw [String.toList_append, List.getLast?_append] at hc
  cases hc
  rfl

theorem Text.breaks_break (text : String) : breaks (text ++ "\n") = breaks text + 1 := by
  simp [breaks]

/-- A line break behind a text only moves its end. -/
theorem tokenize_break {upper : String} {ts : List Token} {final : Token}
    (h : tokenize upper = .ok (ts ++ [final])) :
    ∃ last, tokenize (upper ++ "\n") = .ok (ts ++ [last]) := by
  obtain ⟨herror, htokens⟩ := tokenize_eq_ok_iff.mp h
  have hskip : Scan.skipTrivia ['\n'] = (['\n'], []) := by
    have hpiece : Scan.trivium? ['\n'] = some (['\n'], []) := rfl
    rw [Scan.skipTrivia_of_some hpiece, Scan.skipTrivia_of_none rfl]
    rfl
  have hend : ∀ p : Position, Scan.scanFrom p ['\n'] =
      ⟨[.plain .endOfFile (p.after ['\n'])], none, [], p.after ['\n']⟩ := by
    intro p
    rw [Scan.scanFrom_eq, hskip]
  have hscan : Scan.scan (upper ++ "\n") =
      (Scan.scanFrom (Position.start.after upper.toList) ['\n']).behind
        (Scan.scan upper).tokens.dropLast := by
    rw [Scan.scan, String.toList_append]
    exact Scan.scanFrom_append herror fun _ => .inr rfl
  rw [hend, htokens, List.dropLast_concat] at hscan
  exact ⟨_, tokenize_eq_ok_iff.mpr (by rw [hscan]; exact ⟨rfl, rfl⟩)⟩

/-- Scanning distributes over a line break, whatever the upper text ends with and whatever the lower
one begins with. The tokens of the upper text stay as they are, its end apart, and those of the
lower one, or its error, stand further down by the lines above them, in the same columns. -/
theorem tokenize_line_break (upper below : String) (ts : List Token) (final : Token)
    (h : tokenize upper = .ok (ts ++ [final])) :
    final.kind = .endOfFile ∧
      tokenize (upper ++ "\n" ++ below) =
        match tokenize below with
        | .ok us => .ok (ts ++ us.map (Token.lower (1 + Text.breaks upper)))
        | .error e => .error (e.lower (1 + Text.breaks upper)) := by
  constructor
  · obtain ⟨front, last, heq, hlast, -⟩ := tokens_of_tokenize h
    obtain ⟨-, hfinal⟩ := List.append_inj' heq rfl
    rw [List.singleton_inj.mp hfinal]
    exact hlast
  · obtain ⟨last, hbreak⟩ := tokenize_break h
    have hlines := Text.wholeLines_break upper
    rw [tokenize_append hbreak hlines, List.dropLast_concat, Text.breaks_break, Nat.add_comm]

/-- A brace in front of the line break and one behind it do not begin an expression, and a string
that is open below is reported where it begins. -/
theorem tokenize_line_break_braces :
    let name : Token := ⟨.identifier, some (.text "a"), ⟨1, 1⟩⟩
    let brace (line : Nat) : Token := .plain (.punctuation .leftBrace) ⟨line, 1⟩
    let final (line : Nat) : Token := .plain .endOfFile ⟨line, 2⟩
    tokenize "a\n\x7b" = .ok ([name, brace 2] ++ [final 2]) ∧
      tokenize "\x7b" = .ok [brace 1, final 1] ∧
      tokenize ("a\n\x7b" ++ "\n" ++ "\x7b") = .ok [name, brace 2, brace 3, final 3] ∧
      tokenize "\x7b\"" = .error ⟨.unterminatedString, ⟨1, 2⟩⟩ ∧
      tokenize ("a\n\x7b" ++ "\n" ++ "\x7b\"") = .error ⟨.unterminatedString, ⟨3, 2⟩⟩ := by
  intro name brace final
  have hupper : tokenize "a\n\x7b" = .ok ([name, brace 2] ++ [final 2]) :=
    tokenize_eq_ok_iff.mpr (by decide +kernel)
  have hbelow : tokenize "\x7b" = .ok [brace 1, final 1] :=
    tokenize_eq_ok_iff.mpr (by decide +kernel)
  have hopen : tokenize "\x7b\"" = .error ⟨.unterminatedString, ⟨1, 2⟩⟩ :=
    tokenize_eq_error_iff.mpr (by decide +kernel)
  have hboth := (tokenize_line_break _ "\x7b" _ _ hupper).2
  have hfails := (tokenize_line_break _ "\x7b\"" _ _ hupper).2
  rw [hbelow] at hboth
  rw [hopen] at hfails
  exact ⟨hupper, hbelow, hboth, hopen, hfails⟩

end RecordFlow
