/-
# Statements stand in slices

What is read as a statement is a run of tokens up to its only semicolon, and it is read as the same
statement when it stands alone. Recovery drops tokens between such runs and never takes a part of
one. So the statements of a script, however broken it is, stand in slices of its tokens, one behind
the other, and there are at most as many of them as there are semicolons.
-/

import RecordFlow.Proofs.Script.Boundary

namespace RecordFlow

open Production

namespace Script

variable {final t : Token} {ts rest behind : List Token} {statement : Statement}

/-- Whether a token closes a statement. -/
def isSemicolon (t : Token) : Bool := t.kind == .punctuation .semicolon

/-- A run of tokens that is one statement by itself: its last token is its only semicolon, and
reading it gives the statement and no error. -/
structure IsSlice (slice : List Token) (statement : Statement) : Prop where
  closed : ∃ front semicolon, slice = front ++ [semicolon] ∧ isSemicolon semicolon ∧
    ∀ t ∈ front, ¬isSemicolon t
  statements_eq : (parse slice).script.statements = [statement]
  errors_eq : (parse slice).errors = []

/-- Statements that are found in a list of tokens from left to right, each in a slice of its own.
Any tokens may be left over in front of a slice and behind the last one. -/
inductive Sliced : List Token → List Statement → Prop
  | rest (skipped : List Token) : Sliced skipped []
  | slice (skipped : List Token) {slice rest : List Token} {statement : Statement}
      {statements : List Statement} (hslice : IsSlice slice statement)
      (hrest : Sliced rest statements) : Sliced (skipped ++ slice ++ rest) (statement :: statements)

theorem IsSlice.countP_eq_one {slice : List Token} (h : IsSlice slice statement) :
    slice.countP isSemicolon = 1 := by
  obtain ⟨front, semicolon, rfl, hsemicolon, hfront⟩ := h.closed
  rw [List.countP_append, List.countP_eq_zero.mpr hfront, List.countP_singleton, if_pos hsemicolon]

theorem Sliced.skip {statements : List Statement} (skipped : List Token)
    (h : Sliced ts statements) : Sliced (skipped ++ ts) statements := by
  cases h with
  | rest => exact .rest _
  | slice more hslice hrest =>
      rw [← List.append_assoc, ← List.append_assoc]
      exact .slice (skipped ++ more) hslice hrest

/-- Each slice has a semicolon of its own. -/
theorem Sliced.length_le {statements : List Statement} (h : Sliced ts statements) :
    statements.length ≤ ts.countP isSemicolon := by
  induction h with
  | rest skipped => exact Nat.zero_le _
  | slice skipped hslice hrest ih =>
      rw [List.length_cons, List.countP_append, List.countP_append, hslice.countP_eq_one]
      omega

/-- A round that succeeds has read up to the first semicolon, and reads the same when nothing stands
behind it. -/
theorem slice_of_round (h : round final t rest = (.ok statement, behind)) :
    ∃ front semicolon, t :: rest = front ++ [semicolon] ++ behind ∧ isSemicolon semicolon ∧
      (∀ u ∈ front, ¬isSemicolon u) ∧
      ∀ other, readStatements other (front ++ [semicolon]) = ([statement], []) := by
  obtain ⟨body, hbody, hclosed⟩ := round_eq_ok_iff.mp h
  obtain ⟨semicolon, hkind, hrun⟩ := Statement.closed_eq_ok hclosed
  obtain ⟨front, rfl⟩ : semicolon :: behind <:+ rest := by
    have hforward := forward_body hbody rest
    rwa [left, hrun] at hforward
  have hfirst : t.kind ≠ .punctuation .semicolon := by
    intro ht
    rw [Statement.body?, ht] at hbody
    cases hbody
  have hfront := (built_body hbody).confined.semicolon_not_mem (r := .ok statement) hrun
  refine ⟨t :: front, semicolon, by simp, beq_iff_eq.mpr hkind, ?_, fun other => ?_⟩
  · simpa [isSemicolon] using And.intro hfirst hfront
  · rcases hshort : round final t (front ++ [semicolon]) with ⟨r, kept⟩
    have hsealed : Sealed (t :: (front ++ [semicolon])) := sealed_concat (t :: front) hkind
    obtain ⟨-, hsame⟩ := round_append hsealed hshort
    have hlong := hsame final behind
    rw [List.append_assoc, List.singleton_append, h] at hlong
    obtain ⟨rfl, hkept⟩ := Prod.mk.inj hlong
    obtain rfl : kept = [] := List.append_left_eq_self.mp hkept.symm
    have halone := hsame other []
    rw [List.append_nil] at halone
    rw [List.cons_append, readStatements_of_ok halone, List.nil_append, readStatements]

theorem isSlice_of_round (hts : ∀ u ∈ t :: rest, ¬isFinal u)
    (h : round final t rest = (.ok statement, behind)) :
    ∃ slice, t :: rest = slice ++ behind ∧ IsSlice slice statement := by
  obtain ⟨front, semicolon, hall, hsemicolon, hfront, hread⟩ := slice_of_round h
  rw [hall, List.forall_mem_append] at hts
  refine ⟨front ++ [semicolon], hall, ⟨front, semicolon, rfl, hsemicolon, hfront⟩, ?_, ?_⟩
  · simp only [parse, body_eq_self hts.1, hread]
  · simp only [parse, body_eq_self hts.1, hread]

theorem sliced_readStatements (final : Token) (hts : ∀ t ∈ ts, ¬isFinal t) :
    Sliced ts (readStatements final ts).1 := by
  induction ts using rounds_induction final with
  | nil =>
      rw [readStatements]
      exact .rest []
  | ok t rest statement behind hround ih =>
      obtain ⟨slice, hall, hslice⟩ := isSlice_of_round hts hround
      rw [readStatements_of_ok hround]
      rw [hall] at hts ⊢
      exact .slice [] hslice (ih (List.forall_mem_append.mp hts).2)
  | error t rest e behind hround ih =>
      obtain ⟨skipped, hall⟩ := (suffix_of_round hround).trans (List.suffix_cons t rest)
      rw [readStatements_of_error hround]
      rw [← hall] at hts ⊢
      exact (ih (List.forall_mem_append.mp hts).2).skip skipped

/-- Without an error nothing is left over, so every semicolon closes a statement. -/
theorem length_of_no_errors (hts : ∀ t ∈ ts, ¬isFinal t)
    (h : (readStatements final ts).2 = []) :
    (readStatements final ts).1.length = ts.countP isSemicolon := by
  induction ts using rounds_induction final with
  | nil => simp [readStatements]
  | ok t rest statement behind hround ih =>
      obtain ⟨slice, hall, hslice⟩ := isSlice_of_round hts hround
      rw [readStatements_of_ok hround] at h ⊢
      rw [hall] at hts ⊢
      rw [List.length_cons, ih (List.forall_mem_append.mp hts).2 h, List.countP_append,
        hslice.countP_eq_one, Nat.add_comm]
  | error t rest e behind hround ih =>
      rw [readStatements_of_error hround] at h
      cases h

end Script

/-- No statement is put together from parts. The statements that are read, next to any errors, stand
in slices of the tokens before the end of the text, one behind the other, each of which ends with
its only semicolon and is read as this statement when it stands alone. So there are at most as many
statements as semicolons, and without errors as many. -/
theorem statements_stand_in_slices (ts : List Token) :
    Script.Sliced (Script.beforeEnd ts) (parse ts).script.statements ∧
      (parse ts).script.statements.length ≤ (Script.beforeEnd ts).countP Script.isSemicolon ∧
      ((parse ts).errors = [] →
        (parse ts).script.statements.length =
          (Script.beforeEnd ts).countP Script.isSemicolon) := by
  have hbody : ∀ t ∈ Script.beforeEnd ts, ¬Script.isFinal t :=
    Script.not_isFinal_of_mem_beforeEnd ts
  have hsliced : Script.Sliced (Script.beforeEnd ts) (parse ts).script.statements :=
    Script.sliced_readStatements _ hbody
  exact ⟨hsliced, hsliced.length_le, Script.length_of_no_errors hbody⟩

end RecordFlow
