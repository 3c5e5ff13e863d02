/-
# More trivia around lexemes

Trivia may be put in front of and behind the lexemes of a text without changing its tokens. What
could go wrong is that a lexeme ends elsewhere than before. It does not, because what follows a
lexeme now either begins with trivia, where every lexeme ends, or with the characters that followed
it before.
-/

import RecordFlow.Proofs.Token.Partition

namespace RecordFlow

namespace Scan

/-- A cell, and trivia to put in front of its lexeme and behind it. -/
structure Spacing where
  cell : Cell
  before : List Char
  after : List Char
  isBefore : Trivia before
  isAfter : Trivia after

/-- A cell with the trivia put in. -/
def Spacing.text (item : Spacing) : List Char :=
  item.cell.trivia ++ (item.before ++ (item.cell.lexeme ++ item.after))

/-- Cells in a row with the trivia put in. -/
def spaced (items : List Spacing) : List Char := items.flatMap Spacing.text

/-- Cells in a row as they were. -/
def unspaced (items : List Spacing) : List Char := joined (items.map Spacing.cell)

variable {items : List Spacing} {final gap : List Char} {c d : Char}

theorem spaced_cons (item : Spacing) (items : List Spacing) :
    spaced (item :: items) =
      item.cell.trivia ++ (item.before ++ (item.cell.lexeme ++ (item.after ++ spaced items))) := by
  simp [spaced, Spacing.text]

theorem unspaced_cons (item : Spacing) (items : List Spacing) :
    unspaced (item :: items) = item.cell.trivia ++ (item.cell.lexeme ++ unspaced items) :=
  joined_cons item.cell (items.map Spacing.cell)

/-- A text that does not begin with trivia begins with no gap. -/
theorem Trivia.eq_nil {rest tail : List Char} (hgap : Trivia gap) (h : gap ++ rest = c :: tail)
    (hc : opensTrivia c = false) : gap = [] := by
  by_cases hne : gap = []
  · exact hne
  · obtain ⟨first, more, rfl, hfirst⟩ := hgap.head hne
    rw [(List.cons.inj h).1, hc] at hfirst
    exact nomatch hfirst

/-- Where a text with more trivia does not begin with trivia, it begins as the text without does:
with the same end of the text, or with the same lexeme. -/
theorem begins_of_not_opensTrivia {tail : List Char} (hgap : Trivia gap)
    (h : gap ++ (spaced items ++ final) = c :: tail) (hc : opensTrivia c = false) :
    unspaced items ++ final = c :: tail ∨
      ∃ after rest more, Trivia after ∧ tail = more ++ (after ++ (spaced rest ++ final)) ∧
        unspaced items ++ final = c :: (more ++ (unspaced rest ++ final)) := by
  obtain rfl := hgap.eq_nil h hc
  rw [List.nil_append] at h
  cases items with
  | nil => exact .inl h
  | cons item rest =>
      simp only [spaced_cons, List.append_assoc] at h
      have htrivia := item.cell.isTrivia.eq_nil h hc
      rw [htrivia, List.nil_append] at h
      have hbefore := item.isBefore.eq_nil h hc
      rw [hbefore, List.nil_append] at h
      obtain ⟨first, more, hlexeme, -⟩ := item.cell.spells.read
      rw [hlexeme, List.cons_append] at h
      obtain ⟨rfl, rfl⟩ := List.cons.inj h
      refine .inr ⟨item.after, rest, more, item.isAfter, rfl, ?_⟩
      rw [unspaced_cons, htrivia, hlexeme]
      simp

/-- A lexeme ends in front of a text if its first two characters, when they do not begin trivia, are
those of another text in front of which it ends. -/
theorem ends_of_same_beginning {kind : TokenKind} {rest other : List Char} (h : Ends kind rest)
    (hfirst : ∀ c tail, other = c :: tail → opensTrivia c = false → rest.head? = some c)
    (hsecond : ∀ c d tail, other = c :: d :: tail → opensTrivia c = false →
      opensTrivia d = false → ∃ more, rest = c :: d :: more) : Ends kind other := by
  cases other with
  | nil => exact ends_nil kind
  | cons c tail =>
      by_cases hc : opensTrivia c
      · exact ends_of_opensTrivia kind hc tail
      · rw [Bool.not_eq_true] at hc
        obtain ⟨more, rfl⟩ := List.head?_eq_some_iff.mp (hfirst c tail rfl hc)
        cases kind with
        | integer =>
            refine ⟨h.1, fun d behind heq => ?_⟩
            by_cases hd : opensTrivia d
            · exact (ends_of_opensTrivia .integer hd []).1 d rfl
            · obtain ⟨others, hrest⟩ := hsecond c d behind (by rw [heq, (List.cons.inj heq).1]) hc
                (Bool.eq_false_iff.mpr hd)
              exact h.2 d others (by rw [hrest, (List.cons.inj heq).1])
        | punctuation mark =>
            rw [ends_mark_iff] at h ⊢
            exact h
        | _ => exact h

/-- A lexeme ends in front of a text with more trivia if it does in front of the text without. -/
theorem ends_spaced {kind : TokenKind} (hgap : Trivia gap)
    (h : Ends kind (unspaced items ++ final)) : Ends kind (gap ++ (spaced items ++ final)) := by
  apply ends_of_same_beginning h
  · intro c tail htext hc
    obtain hsame | ⟨after, rest, more, -, -, hsame⟩ := begins_of_not_opensTrivia hgap htext hc
    · rw [hsame, List.head?_cons]
    · rw [hsame, List.head?_cons]
  · intro c d tail htext hc hd
    obtain hsame | ⟨after, rest, more, hafter, htail, hsame⟩ :=
      begins_of_not_opensTrivia hgap htext hc
    · exact ⟨tail, hsame⟩
    · cases more with
      | cons e more =>
          obtain ⟨rfl, -⟩ := List.cons.inj htail
          exact ⟨_, hsame⟩
      | nil =>
          rw [List.nil_append] at htail hsame
          obtain hnext | ⟨_, _, _, -, -, hnext⟩ := begins_of_not_opensTrivia hafter htail.symm hd
          · exact ⟨_, by rw [hsame, hnext]⟩
          · exact ⟨_, by rw [hsame, hnext]⟩

theorem cells_spaced (hgap : Trivia gap) (h : Separate final (items.map Spacing.cell)) :
    ∃ cells behind, gap ++ (spaced items ++ final) = joined cells ++ behind ∧
      Separate behind cells ∧ cells.map Cell.found = items.map fun item => item.cell.found := by
  induction items generalizing gap with
  | nil => exact ⟨[], gap ++ final, rfl, hgap.append_trailing h, rfl⟩
  | cons item rest ih =>
      obtain ⟨hends, hrest⟩ := h
      obtain ⟨cells, behind, htext, hseparate, hfound⟩ := ih item.isAfter hrest
      have htrivia : Trivia (gap ++ (item.cell.trivia ++ item.before)) :=
        hgap.append (item.cell.isTrivia.append item.isBefore)
      refine ⟨⟨_, _, _, htrivia, item.cell.spells⟩ :: cells, behind, ?_, ⟨?_, hseparate⟩, ?_⟩
      · simp only [spaced_cons, joined_cons, List.append_assoc]
        rw [htext]
      · rw [← htext]
        exact ends_spaced item.isAfter hends
      · rw [List.map_cons, hfound]
        rfl

end Scan

/-- A text that comes from another by putting trivia in front of and behind its lexemes. -/
def Respaced (source other : String) : Prop :=
  ∃ (items : List Scan.Spacing) (final : List Char),
    Scan.Separate final (items.map Scan.Spacing.cell) ∧
      source.toList = Scan.joined (items.map Scan.Spacing.cell) ++ final ∧
      other.toList = items.flatMap Scan.Spacing.text ++ final

/-- More trivia does not change the tokens. -/
theorem Respaced.same_tokens {source other : String} (h : Respaced source other) :
    ∃ ts us, tokenize source = .ok ts ∧ tokenize other = .ok us ∧
      us.map Token.classified = ts.map Token.classified := by
  obtain ⟨items, final, hseparate, hsource, hother⟩ := h
  obtain ⟨cells, behind, htext, hcells, hfound⟩ := Scan.cells_spaced .nil hseparate
  refine ⟨_, _, Scan.tokenize_eq_ok_iff_cells.mpr ⟨_, final, hsource, hseparate, rfl⟩,
    Scan.tokenize_eq_ok_iff_cells.mpr ⟨cells, behind, hother.trans htext, hcells, rfl⟩, ?_⟩
  rw [Scan.classified_tokensFrom, Scan.classified_tokensFrom, hfound, List.map_map]
  rfl

end RecordFlow
