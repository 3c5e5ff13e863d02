/-
# Semicolons are boundaries

A round of reading that begins in front of a semicolon ends behind it at the latest, whether it
reads a statement or recovers from an error, and it never looks behind it. A list of tokens that
ends in a semicolon is therefore read as if it stood alone: what comes behind it is read as a script
of its own.
-/

import RecordFlow.Proofs.Production.Confined
import RecordFlow.Proofs.Script.Rounds

namespace RecordFlow

open Production

namespace Script

variable {final semicolon t : Token} {us rest behind : List Token}

/-- A list of tokens that is empty or ends in a semicolon. -/
def Sealed (ts : List Token) : Prop := ∀ t ∈ ts.getLast?, t.kind = .punctuation .semicolon

theorem sealed_nil : Sealed [] := nofun

theorem sealed_concat (us : List Token) (h : semicolon.kind = .punctuation .semicolon) :
    Sealed (us ++ [semicolon]) := by
  simpa [Sealed] using h

theorem Sealed.tail (h : Sealed (t :: rest)) :
    rest = [] ∧ t.kind = .punctuation .semicolon ∨
      ∃ us semicolon, semicolon.kind = .punctuation .semicolon ∧ rest = us ++ [semicolon] := by
  rcases List.eq_nil_or_concat rest with rfl | ⟨us, last, rfl⟩
  · exact .inl ⟨rfl, h t rfl⟩
  · rw [List.concat_eq_append, ← List.cons_append] at h
    exact .inr ⟨us, last, h last List.getLast?_concat, List.concat_eq_append⟩

/-- The one token of lookahead never falls behind the semicolon. -/
theorem beginsStatement_append (t : Token) (us : List Token) (semicolon : Token)
    (vs : List Token) :
    beginsStatement (t :: us ++ semicolon :: vs) = beginsStatement (t :: us ++ [semicolon]) := by
  cases us with
  | nil => simp [beginsStatement]
  | cons u us => simp [beginsStatement]

/-- Recovery stops behind the semicolon at the latest. -/
theorem recover_append (us : List Token) (h : semicolon.kind = .punctuation .semicolon) :
    ∃ kept, Sealed kept ∧ ∀ vs, recover (us ++ semicolon :: vs) = kept ++ vs := by
  induction us with
  | nil => exact ⟨[], sealed_nil, fun vs => by simp [recover, beginsStatement, h]⟩
  | cons t us ih =>
      have hlook := beginsStatement_append t us semicolon
      by_cases hbegins : beginsStatement (t :: us ++ [semicolon])
      · refine ⟨t :: us ++ [semicolon], sealed_concat _ h, fun vs => ?_⟩
        rw [List.cons_append, recover, ← List.cons_append, hlook, if_pos hbegins]
        simp
      · by_cases hkind : t.kind = .punctuation .semicolon
        · refine ⟨us ++ [semicolon], sealed_concat _ h, fun vs => ?_⟩
          rw [List.cons_append, recover, ← List.cons_append, hlook, if_neg hbegins, if_pos hkind]
          simp
        · obtain ⟨kept, hkept, hrecover⟩ := ih
          refine ⟨kept, hkept, fun vs => ?_⟩
          rw [List.cons_append, recover, ← List.cons_append, hlook, if_neg hbegins, if_neg hkind,
            hrecover]

/-- A statement is read up to a semicolon that is not behind the given one, or it fails in front of
the given one at the latest. -/
theorem closed_append {body : Production Statement} (hbody : Confined body) (us : List Token)
    (h : semicolon.kind = .punctuation .semicolon) :
    (∃ statement kept, Sealed kept ∧
      ∀ vs, Statement.closed body (us ++ semicolon :: vs) = .ok statement (kept ++ vs)) ∨
    ∃ what kept, ∀ vs,
      Statement.closed body (us ++ semicolon :: vs) = .error what (kept ++ semicolon :: vs) := by
  obtain ⟨r, kept, hrun⟩ := hbody us semicolon h
  cases r with
  | error what => exact .inr ⟨what, kept, fun vs => bind_of_error (hrun vs)⟩
  | ok statement =>
      cases kept with
      | nil =>
          refine .inl ⟨statement, [], sealed_nil, fun vs => ?_⟩
          exact (bind_of_ok (hrun vs)).trans (bind_of_ok (take_cons h .semicolon vs))
      | cons u kept =>
          by_cases hu : u.kind = .punctuation .semicolon
          · refine .inl ⟨statement, kept ++ [semicolon], sealed_concat _ h, fun vs => ?_⟩
            rw [List.append_assoc]
            exact (bind_of_ok (hrun vs)).trans (bind_of_ok (take_cons hu .semicolon _))
          · refine .inr ⟨.semicolon, u :: kept, fun vs => ?_⟩
            refine (bind_of_ok (hrun vs)).trans (bind_of_error ?_)
            simp [mark, take, choose, hu]

/-- A round on a list that ends in a semicolon leaves such a list, and it is the same round whatever
comes behind and whichever token marks the end of the text. -/
theorem round_append {r : Except ParseError Statement} (h : Sealed (t :: rest))
    (hround : round final t rest = (r, behind)) :
    Sealed behind ∧ ∀ other vs, round other t (rest ++ vs) = (r, behind ++ vs) := by
  suffices hsame : ∃ s kept, Sealed kept ∧
      ∀ other vs, round other t (rest ++ vs) = (s, kept ++ vs) by
    obtain ⟨s, kept, hkept, hrun⟩ := hsame
    have halone := hrun final []
    rw [List.append_nil, List.append_nil, hround] at halone
    cases halone
    exact ⟨hkept, hrun⟩
  obtain ⟨rfl, ht⟩ | ⟨us, semicolon, hkind, rfl⟩ := h.tail
  · refine ⟨.error (strayToken t), [], sealed_nil, fun other vs => ?_⟩
    simp [round, Statement.body?, recoverFrom, ht]
  · simp only [List.append_assoc, List.singleton_append]
    cases hbody : Statement.body? t with
    | none =>
        by_cases ht : t.kind = .punctuation .semicolon
        · refine ⟨.error (strayToken t), us ++ [semicolon], sealed_concat _ hkind, ?_⟩
          intro other vs
          simp [round, hbody, recoverFrom, ht]
        · obtain ⟨kept, hkept, hrecover⟩ := recover_append us hkind
          refine ⟨.error (strayToken t), kept, hkept, fun other vs => ?_⟩
          simp only [round, hbody, recoverFrom, if_neg ht, hrecover]
    | some body =>
        obtain ⟨statement, kept, hkept, hrun⟩ | ⟨what, kept, hrun⟩ :=
          closed_append (built_body hbody).confined us hkind
        · refine ⟨.ok statement, kept, hkept, fun other vs => ?_⟩
          simp only [round, hbody, hrun]
        · obtain ⟨left, hleft, hrecover⟩ := recover_append kept hkind
          refine ⟨.error ⟨.expected what, kept.headD semicolon⟩, left, hleft, fun other vs => ?_⟩
          have hhead : (kept ++ semicolon :: vs).headD other = kept.headD semicolon := by
            cases kept <;> rfl
          simp only [round, hbody, hrun, hrecover, hhead]

/-- Reading a list that ends in a semicolon and then something else reads the two apart. -/
theorem readStatements_append (final other : Token) {ts : List Token} (h : Sealed ts)
    (vs : List Token) :
    readStatements other (ts ++ vs) =
      ((readStatements final ts).1 ++ (readStatements other vs).1,
        (readStatements final ts).2 ++ (readStatements other vs).2) := by
  induction ts using rounds_induction final with
  | nil => simp [readStatements]
  | ok t rest statement behind hround ih =>
      obtain ⟨hbehind, hrun⟩ := round_append h hround
      rw [List.cons_append, readStatements_of_ok (hrun other vs), readStatements_of_ok hround,
        ih hbehind]
      rfl
  | error t rest e behind hround ih =>
      obtain ⟨hbehind, hrun⟩ := round_append h hround
      rw [List.cons_append, readStatements_of_error (hrun other vs),
        readStatements_of_error hround, ih hbehind]
      rfl

/-- Tokens that are sealed off by a semicolon are read apart from all that follows them. -/
theorem readStatements_finalToken_append {xs : List Token} (hxs : ∀ t ∈ xs, ¬isFinal t)
    (hsealed : Sealed xs) (ys : List Token) :
    readStatements (finalToken (xs ++ ys)) ((xs ++ ys).takeWhile fun t => !isFinal t) =
      ((readStatements (finalToken xs) (xs.takeWhile fun t => !isFinal t)).1 ++
          (readStatements (finalToken ys) (ys.takeWhile fun t => !isFinal t)).1,
        (readStatements (finalToken xs) (xs.takeWhile fun t => !isFinal t)).2 ++
          (readStatements (finalToken ys) (ys.takeWhile fun t => !isFinal t)).2) := by
  have hpass : ∀ t ∈ xs, !isFinal t := by simpa using hxs
  rw [List.takeWhile_append_of_pos hpass, body_eq_self hxs,
    readStatements_append (finalToken xs) _ hsealed]
  -- With nothing behind, the two final tokens differ, but no round is left that could name one.
  cases ys with
  | nil => simp [readStatements]
  | cons t ys => rw [finalToken_append hxs (List.cons_ne_nil t ys)]

end Script

/-- A semicolon is a hard boundary: what stands up to it and what stands behind it are read as two
scripts, whatever is wrong in either of them. -/
theorem parse_append_semicolon (xs ys : List Token) (semicolon : Token)
    (hxs : ∀ t ∈ xs, t.kind ≠ .endOfFile) (hsemicolon : semicolon.kind = .punctuation .semicolon) :
    (parse (xs ++ [semicolon] ++ ys)).script.statements =
        (parse (xs ++ [semicolon])).script.statements ++ (parse ys).script.statements ∧
      (parse (xs ++ [semicolon] ++ ys)).errors =
        (parse (xs ++ [semicolon])).errors ++ (parse ys).errors := by
  have hfront : ∀ t ∈ xs ++ [semicolon], ¬Script.isFinal t := by
    intro t ht
    rcases List.mem_append.mp ht with hmem | hmem
    · simpa [Script.isFinal] using hxs t hmem
    · rw [List.mem_singleton.mp hmem, Script.isFinal, hsemicolon]
      decide
  have hsealed := Script.sealed_concat xs hsemicolon
  have hread := Script.readStatements_finalToken_append hfront hsealed ys
  exact ⟨congrArg Prod.fst hread, congrArg Prod.snd hread⟩

/-- In `SELECT a = ; EXPORT` every statement is broken. Recovery resumes at `a =`, in front of the
semicolon, and the error behind the semicolon is found as well. -/
theorem parse_append_semicolon_three_errors :
    let select : Token := .plain (.keyword .SELECT) .start
    let name : Token := .plain .identifier .start
    let equal : Token := .plain (.punctuation .equal) .start
    let semicolon : Token := .plain (.punctuation .semicolon) .start
    let offer : Token := .plain (.keyword .EXPORT) .start
    (∀ t ∈ [select, name, equal], t.kind ≠ .endOfFile) ∧
      semicolon.kind = .punctuation .semicolon ∧
      (parse [select, name, equal, semicolon, offer]).script.statements =
        (parse [select, name, equal, semicolon]).script.statements ++
          (parse [offer]).script.statements ∧
      (parse [select, name, equal, semicolon, offer]).errors =
        (parse [select, name, equal, semicolon]).errors ++ (parse [offer]).errors ∧
      (parse [select, name, equal, semicolon]).errors =
        [⟨.unexpected, select⟩, ⟨.expected .source, semicolon⟩] := by
  intro select name equal semicolon offer
  obtain ⟨hstatements, herrors⟩ := parse_append_semicolon [select, name, equal] [offer] semicolon
    (by decide) rfl
  exact ⟨by decide, rfl, hstatements, herrors, by decide +kernel⟩

end RecordFlow
