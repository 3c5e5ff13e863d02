/-
# Scanning partitions the text

A text that can be scanned is cut into cells, a lexeme with the trivia before it, and the trivia at
its end. The cells make up the whole text, the tokens are what the lexemes spell, and each stands
where the text before its lexeme ends. The cut is described without the scanner, and a text has one
exactly when the scanner accepts it.
-/

import RecordFlow.Proofs.Token.Lines
import RecordFlow.Proofs.Token.Spelling

namespace RecordFlow

namespace Position

/-- The place behind a text: one more than its line breaks, and one more than the characters since
the last of them. -/
def behind (cs : List Char) : Position :=
  ⟨1 + cs.count '\n', 1 + (cs.reverse.takeWhile (· != '\n')).length⟩

theorem behind_concat (cs : List Char) (c : Char) : behind (cs ++ [c]) = (behind cs).next c := by
  unfold behind next
  by_cases hc : c = '\n'
  · subst hc
    simp [Nat.add_assoc]
  · simp [hc, Nat.add_assoc, Nat.add_comm 1]

/-- Counting character by character, a place is moved down by the line breaks, and right from the
last of them or, if there is none, from where it was. -/
theorem after_eq (p : Position) (cs : List Char) :
    p.after cs = ⟨p.line + cs.count '\n',
      if '\n' ∈ cs then (behind cs).column else p.column + cs.length⟩ := by
  -- A place is moved by the last character, so the text is taken apart from its end.
  generalize hrev : cs.reverse = rev
  induction rev generalizing cs with
  | nil =>
      rw [List.reverse_eq_nil_iff.mp hrev]
      rfl
  | cons c rev ih =>
      obtain rfl : cs = rev.reverse ++ [c] := by
        rw [← List.reverse_reverse cs, hrev, List.reverse_cons]
      rw [after_append, ih rev.reverse (List.reverse_reverse rev), behind_concat]
      change next _ c = _
      by_cases hc : c = '\n'
      · simp [next, hc, Nat.add_assoc]
      · by_cases hbreak : '\n' ∈ rev
        · simp [next, hc, hbreak]
        · simp [next, hc, hbreak, Ne.symm hc, Nat.add_assoc]

theorem start_after (cs : List Char) : start.after cs = behind cs := by
  rw [after_eq]
  by_cases hbreak : '\n' ∈ cs
  · simp [start, behind, hbreak]
  · have hline : (cs.reverse ++ []).takeWhile (· != '\n') = cs.reverse ++ [] :=
      List.takeWhile_append_of_pos fun c hc => by
        simpa using ne_of_mem_of_not_mem (List.mem_reverse.mp hc) hbreak
    rw [List.append_nil] at hline
    simp [start, behind, hbreak, hline]

end Position

/-- A token without its place. -/
def Token.classified (t : Token) : Scan.Classified := ⟨t.kind, t.value⟩

namespace Scan

/-- A lexeme and the trivia before it. -/
structure Cell where
  trivia : List Char
  lexeme : List Char
  /-- The token that the lexeme spells. -/
  found : Classified
  isTrivia : Trivia trivia
  spells : Spells lexeme found

namespace Cell

/-- The characters of a cell. -/
def text (cell : Cell) : List Char := cell.trivia ++ cell.lexeme

/-- The token of a cell, when its lexeme stands at `position`. -/
def token (cell : Cell) (position : Position) : Token :=
  ⟨cell.found.kind, cell.found.value, position⟩

end Cell

/-- The text of cells in a row. -/
def joined (cells : List Cell) : List Char := cells.flatMap Cell.text

@[simp]
theorem joined_nil : joined [] = [] := rfl

@[simp]
theorem joined_cons (cell : Cell) (cells : List Cell) :
    joined (cell :: cells) = cell.trivia ++ (cell.lexeme ++ joined cells) := by
  simp [joined, Cell.text]

/-- Each lexeme ends where the next cell begins, and nothing but trivia is left behind the last
one. -/
def Separate (final : List Char) : List Cell → Prop
  | [] => TrailingTrivia final
  | cell :: cells => Ends cell.found.kind (joined cells ++ final) ∧ Separate final cells

/-- The tokens of cells that begin at `position`, and the one for the end of the text. -/
def tokensFrom (position : Position) (final : List Char) : List Cell → List Token
  | [] => [.plain .endOfFile (position.after final)]
  | cell :: cells =>
      cell.token (position.after cell.trivia) ::
        tokensFrom (position.after cell.text) final cells

variable {cells : List Cell} {final cs : List Char} {position : Position}

theorem scanFrom_joined (h : Separate final cells) (position : Position) :
    scanFrom position (joined cells ++ final) =
      ⟨tokensFrom position final cells, none, [], position.after (joined cells ++ final)⟩ := by
  induction cells generalizing position with
  | nil =>
      rw [joined_nil, List.nil_append, scanFrom_eq, h.skip]
      rfl
  | cons cell cells ih =>
      obtain ⟨hends, hrest⟩ := h
      obtain ⟨c, tail, hlexeme, -⟩ := cell.spells.read
      have hread : readLexeme c (tail ++ (joined cells ++ final)) =
          ⟨.ok cell.found, cell.lexeme, joined cells ++ final⟩ :=
        readLexeme_of_spells cell.spells hends (by rw [hlexeme, List.cons_append])
      have hskip : skipTrivia (joined (cell :: cells) ++ final) =
          (cell.trivia, c :: (tail ++ (joined cells ++ final))) := by
        rw [joined_cons, List.append_assoc, List.append_assoc, cell.isTrivia.skip, cell.spells.skip,
          List.append_nil, hlexeme, List.cons_append]
      rw [scanFrom_eq, hskip]
      simp only [hread, ih hrest, Result.cons, tokensFrom, Cell.token, Cell.text, joined_cons,
        Position.after_append]

theorem cells_of_scanFrom (h : (scanFrom position cs).error? = none) :
    ∃ cells final, cs = joined cells ++ final ∧ Separate final cells ∧
      (scanFrom position cs).tokens = tokensFrom position final cells := by
  fun_induction scanFrom position cs with
  | case1 position cs htext start =>
      have hcs : (skipTrivia cs).1 = cs := by
        rw [← List.append_nil (skipTrivia cs).1, ← htext, skipTrivia_append]
      have htrailing : TrailingTrivia (skipTrivia cs).1 := by
        obtain htrivia | ⟨-, htrailing⟩ := trivia_of_skipTrivia cs
        · exact .complete htrivia
        · exact htrailing
      exact ⟨[], (skipTrivia cs).1, hcs.symm, htrailing, rfl⟩
  | case2 position cs c rest htext start behind found hread _ ih =>
      obtain ⟨cells, final, hrest, hseparate, htokens⟩ := ih h
      obtain ⟨hspells, hends⟩ := spells_of_readLexeme hread
      have htrivia : Trivia (skipTrivia cs).1 := by
        obtain htrivia | ⟨hend, -⟩ := trivia_of_skipTrivia cs
        · exact htrivia
        · exact absurd (htext.symm.trans hend) (List.cons_ne_nil c rest)
      refine ⟨⟨_, _, found, htrivia, hspells⟩ :: cells, final, ?_, ⟨hrest ▸ hends, hseparate⟩, ?_⟩
      · rw [joined_cons, List.append_assoc, List.append_assoc, ← hrest, readLexeme_append, ← htext,
          skipTrivia_append]
      · simp only [Result.cons, htokens, tokensFrom, Cell.token, Cell.text, Position.after_append]
        rfl
  | case3 position cs c rest htext start behind fault hread =>
      exact absurd h (Option.some_ne_none _)

/-- The texts that can be scanned, and what they are scanned as. -/
theorem tokenize_eq_ok_iff_cells {source : String} {ts : List Token} :
    tokenize source = .ok ts ↔
      ∃ cells final, source.toList = joined cells ++ final ∧ Separate final cells ∧
        ts = tokensFrom .start final cells := by
  rw [tokenize_eq_ok_iff]
  constructor
  · rintro ⟨herror, rfl⟩
    exact cells_of_scanFrom herror
  · rintro ⟨cells, final, hsource, hseparate, rfl⟩
    rw [scan, hsource, scanFrom_joined hseparate]
    exact ⟨rfl, rfl⟩

theorem classified_tokensFrom (position : Position) (final : List Char) (cells : List Cell) :
    (tokensFrom position final cells).map Token.classified =
      cells.map Cell.found ++ [⟨.endOfFile, none⟩] := by
  induction cells generalizing position with
  | nil => rfl
  | cons cell cells ih =>
      rw [tokensFrom, List.map_cons, ih]
      rfl

/-- Every token of a text is spelled by some lexeme, but for the one at the end. -/
theorem spelled_of_tokenize {source : String} {ts : List Token} (h : tokenize source = .ok ts) :
    ∀ t ∈ ts, (∃ lexeme, Spells lexeme t.classified) ∨ t.classified = ⟨.endOfFile, none⟩ := by
  obtain ⟨cells, final, -, -, rfl⟩ := tokenize_eq_ok_iff_cells.mp h
  intro t ht
  have hfound := List.mem_map_of_mem (f := Token.classified) ht
  rw [classified_tokensFrom, List.mem_append, List.mem_map, List.mem_singleton] at hfound
  rcases hfound with ⟨cell, -, hcell⟩ | hend
  · exact .inl ⟨cell.lexeme, hcell ▸ cell.spells⟩
  · exact .inr hend

theorem length_tokensFrom : (tokensFrom position final cells).length = cells.length + 1 := by
  induction cells generalizing position with
  | nil => rfl
  | cons cell cells ih => simp [tokensFrom, ih]

theorem getElem?_tokensFrom {i : Nat} {cell : Cell} (h : cells[i]? = some cell) :
    (tokensFrom position final cells)[i]? =
      some (cell.token (position.after (joined (cells.take i) ++ cell.trivia))) := by
  induction cells generalizing position i with
  | nil => exact nomatch h
  | cons first cells ih =>
      cases i with
      | zero =>
          cases h
          rfl
      | succ i =>
          simp only [tokensFrom, List.getElem?_cons_succ, List.take_succ_cons, joined_cons]
          rw [ih h]
          simp only [Cell.text, Position.after_append]

theorem getElem?_tokensFrom_length :
    (tokensFrom position final cells)[cells.length]? =
      some (.plain .endOfFile (position.after (joined cells ++ final))) := by
  induction cells generalizing position with
  | nil => rfl
  | cons cell cells ih =>
      simp only [tokensFrom, List.length_cons, List.getElem?_cons_succ, joined_cons]
      rw [ih]
      simp only [Cell.text, Position.after_append]

/-- A list of tokens is determined by its length and by what stands at each number. -/
theorem eq_tokensFrom_iff {ts : List Token} :
    ts = tokensFrom position final cells ↔
      ts.length = cells.length + 1 ∧
        (∀ (i : Nat) (cell : Cell), cells[i]? = some cell →
          ts[i]? = some (cell.token (position.after (joined (cells.take i) ++ cell.trivia)))) ∧
        ts[cells.length]? = some (.plain .endOfFile (position.after (joined cells ++ final))) := by
  constructor
  · rintro rfl
    exact ⟨length_tokensFrom, fun i cell h => getElem?_tokensFrom h, getElem?_tokensFrom_length⟩
  · rintro ⟨hlength, hcells, hend⟩
    refine List.ext_getElem? fun i => ?_
    rcases Nat.lt_trichotomy i cells.length with hi | rfl | hi
    · have hcell := List.getElem?_eq_getElem hi
      rw [hcells i _ hcell, getElem?_tokensFrom hcell]
    · rw [hend, getElem?_tokensFrom_length]
    · have hbound : (tokensFrom position final cells).length ≤ i := by
        rw [length_tokensFrom]
        omega
      rw [List.getElem?_eq_none (by omega), List.getElem?_eq_none hbound]

end Scan

/-- Scanning partitions the text. A text is scanned as some tokens exactly when it is cut into
trivia and lexemes in turn, every lexeme going as far as it can: the tokens are those that the
lexemes spell, each at the place behind the text before its lexeme, and one for the end at the place
behind the whole text. No lexeme is empty, none stands for the end, and none spells two tokens. -/
theorem tokenize_partitions (source : String) (ts : List Token) :
    (tokenize source = .ok ts ↔
      ∃ (cells : List Scan.Cell) (final : List Char),
        source.toList = Scan.joined cells ++ final ∧ Scan.Separate final cells ∧
        ts.length = cells.length + 1 ∧
        (∀ (i : Nat) (cell : Scan.Cell), cells[i]? = some cell →
          cell.lexeme ≠ [] ∧ cell.found.kind ≠ .endOfFile ∧
          ts[i]? = some ⟨cell.found.kind, cell.found.value,
            .behind (Scan.joined (cells.take i) ++ cell.trivia)⟩) ∧
        ts[cells.length]? = some ⟨.endOfFile, none, .behind source.toList⟩) ∧
      ∀ lexeme found other,
        Scan.Spells lexeme found → Scan.Spells lexeme other → found = other := by
  refine ⟨?_, fun lexeme found other => Scan.Spells.unique⟩
  rw [Scan.tokenize_eq_ok_iff_cells]
  refine exists_congr fun cells => exists_congr fun final => ?_
  rw [Scan.eq_tokensFrom_iff]
  simp only [Position.start_after]
  constructor
  · rintro ⟨hsource, hseparate, hlength, hcells, hend⟩
    refine ⟨hsource, hseparate, hlength, fun i cell h => ?_, hsource ▸ hend⟩
    exact ⟨cell.spells.ne_nil, cell.spells.kind_ne_endOfFile, hcells i cell h⟩
  · rintro ⟨hsource, hseparate, hlength, hcells, hend⟩
    exact ⟨hsource, hseparate, hlength, fun i cell h => (hcells i cell h).2.2, hsource ▸ hend⟩

end RecordFlow
