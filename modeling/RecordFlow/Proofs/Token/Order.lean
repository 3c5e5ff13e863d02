/-
# Tokens in the order of the text

Places are ordered by line and then by column. Text moves the place behind it forward, and no lexeme
is empty, so the tokens of a text, the one for its end included, stand at places that strictly
increase. A place therefore tells which token stands there, and what the text has there is a lexeme
of that token, or nothing.
-/

import RecordFlow.Proofs.Token.Partition

namespace RecordFlow

namespace Position

/-- The place stands in front of the other one: on an earlier line, or further left on the same
line. -/
def Precedes (p q : Position) : Prop := p.line < q.line ∨ p.line = q.line ∧ p.column < q.column

variable {p q r : Position}

theorem Precedes.trans (hpq : p.Precedes q) (hqr : q.Precedes r) : p.Precedes r := by
  unfold Precedes at *
  omega

theorem Precedes.ne (h : p.Precedes q) : p ≠ q := by
  rintro rfl
  unfold Precedes at h
  omega

theorem precedes_next (p : Position) (c : Char) : p.Precedes (p.next c) := by
  unfold Precedes next
  split
  · exact .inl (Nat.lt_succ_self p.line)
  · exact .inr ⟨rfl, Nat.lt_succ_self p.column⟩

/-- Text only moves a place forward. -/
theorem Precedes.after (h : p.Precedes q) (cs : List Char) : p.Precedes (q.after cs) := by
  induction cs generalizing q with
  | nil => exact h
  | cons c cs ih => exact ih (h.trans (q.precedes_next c))

theorem precedes_after (p : Position) {cs : List Char} (h : cs ≠ []) : p.Precedes (p.after cs) := by
  obtain ⟨c, cs, rfl⟩ := List.exists_cons_of_ne_nil h
  exact (p.precedes_next c).after cs

end Position

namespace Scan

variable {before position : Position} {final : List Char} {cells : List Cell}

theorem precedes_of_mem_tokensFrom (h : before.Precedes position) :
    ∀ t ∈ tokensFrom position final cells, before.Precedes t.position := by
  induction cells generalizing position with
  | nil => exact List.forall_mem_singleton.mpr (h.after final)
  | cons cell cells ih =>
      exact List.forall_mem_cons.mpr ⟨h.after cell.trivia, ih (h.after cell.text)⟩

theorem pairwise_tokensFrom (position : Position) (final : List Char) (cells : List Cell) :
    (tokensFrom position final cells).Pairwise (·.position.Precedes ·.position) := by
  induction cells generalizing position with
  | nil => exact List.pairwise_singleton _ _
  | cons cell cells ih =>
      refine List.pairwise_cons.mpr ⟨precedes_of_mem_tokensFrom ?_, ih _⟩
      rw [Cell.text, Position.after_append]
      exact (position.after cell.trivia).precedes_after cell.spells.ne_nil

end Scan

/-- The text has the token: where the token stands, a lexeme of it begins that goes no further, or
it is the one for the end and stands behind the whole text. -/
def Token.StandsIn (t : Token) (source : String) : Prop :=
  ∃ front rest, source.toList = front ++ rest ∧ t.position = .behind front ∧
    (t.kind = .endOfFile ∧ rest = [] ∨
      ∃ lexeme after, rest = lexeme ++ after ∧ Scan.Spells lexeme t.classified ∧
        Scan.Ends t.kind after)

theorem Scan.place_of_mem_tokensFrom {position : Position} {final : List Char} {cells : List Cell}
    (h : Separate final cells) {t : Token} (ht : t ∈ tokensFrom position final cells) :
    ∃ front rest, joined cells ++ final = front ++ rest ∧ t.position = position.after front ∧
      (t.kind = .endOfFile ∧ rest = [] ∨
        ∃ lexeme after, rest = lexeme ++ after ∧ Spells lexeme t.classified ∧
          Ends t.kind after) := by
  induction cells generalizing position with
  | nil =>
      rw [List.mem_singleton.mp ht]
      exact ⟨final, [], by simp, rfl, .inl ⟨rfl, rfl⟩⟩
  | cons cell cells ih =>
      obtain ⟨hends, hrest⟩ := h
      rcases List.mem_cons.mp ht with rfl | ht
      · exact ⟨cell.trivia, cell.lexeme ++ (joined cells ++ final), by simp, rfl,
          .inr ⟨cell.lexeme, _, rfl, cell.spells, hends⟩⟩
      · obtain ⟨front, rest, hcut, hposition, hplace⟩ := ih hrest ht
        refine ⟨cell.text ++ front, rest, ?_, by rw [hposition, Position.after_append], hplace⟩
        rw [List.append_assoc, ← hcut, joined_cons]
        simp [Cell.text]

section Tokenize

variable {source : String} {ts : List Token}

theorem standsIn_of_tokenize (h : tokenize source = .ok ts) : ∀ t ∈ ts, t.StandsIn source := by
  obtain ⟨cells, final, hsource, hseparate, rfl⟩ := Scan.tokenize_eq_ok_iff_cells.mp h
  intro t ht
  obtain ⟨front, rest, hcut, hposition, hplace⟩ := Scan.place_of_mem_tokensFrom hseparate ht
  exact ⟨front, rest, hsource.trans hcut, by rw [hposition, Position.start_after], hplace⟩

/-- The tokens of a text stand one behind the other. -/
theorem pairwise_of_tokenize (h : tokenize source = .ok ts) :
    ts.Pairwise (·.position.Precedes ·.position) := by
  obtain ⟨cells, final, -, -, rfl⟩ := Scan.tokenize_eq_ok_iff_cells.mp h
  exact Scan.pairwise_tokensFrom _ _ _

/-- At a place of a text stands at most one of its tokens. -/
theorem index_of_position (h : tokenize source = .ok ts) {i j : Nat} {t u : Token}
    (hi : ts[i]? = some t) (hj : ts[j]? = some u) (hplace : t.position = u.position) : i = j := by
  have hnodup : (ts.map Token.position).Nodup :=
    List.pairwise_map.mpr ((pairwise_of_tokenize h).imp Position.Precedes.ne)
  have hindex : ∀ (k : Nat) (v : Token), ts[k]? = some v →
      (ts.map Token.position)[k]? = some v.position := by
    intro k v hk
    rw [List.getElem?_map, hk]
    rfl
  have hbound : i < (ts.map Token.position).length := by
    rw [List.length_map]
    exact (List.getElem?_eq_some_iff.mp hi).1
  refine (List.getElem?_inj hbound hnodup).mp ?_
  rw [hindex i t hi, hindex j u hj, hplace]

end Tokenize

end RecordFlow
