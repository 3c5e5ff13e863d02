/-
# Reading round by round

Reading a script is a sequence of rounds, one for each statement or error. What a round can do is
said here once; a property of a whole run follows from what it says about a round, by induction on
the rounds.
-/

import RecordFlow.Proofs.Production.Run
import RecordFlow.Script.Parser

namespace RecordFlow.Script

variable {final t : Token} {rest behind : List Token}

/-- A round succeeds if and only if the statement is read up to its semicolon. -/
theorem round_eq_ok_iff {statement : Statement} :
    round final t rest = (.ok statement, behind) ↔
      ∃ body, Statement.body? t = some body ∧
        Statement.closed body rest = .ok statement behind := by
  unfold round
  cases hbody : Statement.body? t with
  | none => simp
  | some body =>
      cases hclosed : Statement.closed body rest with
      | ok _ _ => simp [hclosed]
      | error _ _ => simp [hclosed]

/-- A round fails at a token that begins no statement, or at the first token that is left where a
statement cannot be read on. -/
theorem round_eq_error {e : ParseError} (h : round final t rest = (.error e, behind)) :
    (Statement.body? t = none ∧ e.found = t ∧ behind = recoverFrom t rest) ∨
      ∃ body what left, Statement.body? t = some body ∧
        Statement.closed body rest = .error what left ∧ left <:+ rest ∧
        e.found = left.headD final ∧ behind = recover left := by
  unfold round at h
  cases hbody : Statement.body? t with
  | none =>
      simp only [hbody] at h
      cases h
      exact .inl ⟨rfl, rfl, rfl⟩
  | some body =>
      have hforward := Production.forward_closed (Production.forward_body hbody) rest
      cases hclosed : Statement.closed body rest with
      | ok statement left =>
          simp only [hbody, hclosed] at h
          exact nomatch h
      | error what left =>
          simp only [hbody, hclosed] at h
          cases h
          rw [Production.left, hclosed] at hforward
          exact .inr ⟨body, what, left, rfl, hclosed, hforward, rfl, rfl⟩

/-- What a round leaves is an end of the tokens behind its first one. -/
theorem suffix_of_round {r : Except ParseError Statement}
    (h : round final t rest = (r, behind)) : behind <:+ rest := by
  have hsuffix := round_suffix final t rest
  rwa [h] at hsuffix

theorem readStatements_of_ok {statement : Statement}
    (h : round final t rest = (.ok statement, behind)) :
    readStatements final (t :: rest) =
      (statement :: (readStatements final behind).1, (readStatements final behind).2) := by
  rw [readStatements, h]

theorem readStatements_of_error {e : ParseError}
    (h : round final t rest = (.error e, behind)) :
    readStatements final (t :: rest) =
      ((readStatements final behind).1, e :: (readStatements final behind).2) := by
  rw [readStatements, h]

/-- What holds of no tokens, and of a list once it holds of what its first round leaves, holds of
every list. -/
theorem rounds_induction (final : Token) {motive : List Token → Prop} (nil : motive [])
    (ok : ∀ t rest statement behind, round final t rest = (.ok statement, behind) →
      motive behind → motive (t :: rest))
    (error : ∀ t rest e behind, round final t rest = (.error e, behind) →
      motive behind → motive (t :: rest)) :
    ∀ ts, motive ts
  | [] => nil
  | t :: rest => by
      have hshorter := (round_suffix final t rest).length_le
      have ih := rounds_induction final nil ok error (round final t rest).2
      rcases hround : round final t rest with ⟨e | statement, behind⟩ <;> rw [hround] at ih
      · exact error t rest e behind hround ih
      · exact ok t rest statement behind hround ih
termination_by ts => ts.length

/-- The tokens in front of the first one that marks the end of the text. -/
def beforeEnd (ts : List Token) : List Token := ts.takeWhile fun t => !isFinal t

theorem not_isFinal_of_mem_beforeEnd (ts : List Token) : ∀ t ∈ beforeEnd ts, ¬isFinal t := by
  intro t ht
  simpa using List.all_eq_true.mp List.all_takeWhile t ht

/-- Where no token marks the end of the text, all of them are read. -/
theorem body_eq_self {ts : List Token} (h : ∀ t ∈ ts, ¬isFinal t) :
    ts.takeWhile (fun t => !isFinal t) = ts := by
  rw [← List.append_nil ts, List.takeWhile_append_of_pos (by simpa using h)]
  rfl

/-- Reading stops at the first token that marks the end of the text. -/
theorem body_append_final {front : List Token} (hfront : ∀ t ∈ front, t.kind ≠ .endOfFile)
    (hfinal : final.kind = .endOfFile) (behind : List Token) :
    (front ++ final :: behind).takeWhile (fun t => !isFinal t) = front ∧
      finalToken (front ++ final :: behind) = final := by
  have hpass : ∀ t ∈ front, ¬isFinal t := by simpa [isFinal] using hfront
  have hlast : isFinal final := beq_iff_eq.mpr hfinal
  constructor
  · rw [List.takeWhile_append_of_pos (by simpa using hpass)]
    simp [hlast]
  · rw [finalToken, List.find?_append, List.find?_eq_none.mpr hpass]
    simp [hlast]

/-- Tokens in front that do not mark the end of the text do not move it. -/
theorem finalToken_append {xs ys : List Token} (h : ∀ t ∈ xs, ¬isFinal t) (hys : ys ≠ []) :
    finalToken (xs ++ ys) = finalToken ys := by
  have hfind : xs.find? isFinal = none := List.find?_eq_none.mpr h
  have hlast : (xs ++ ys).getLast? = ys.getLast? := by
    obtain ⟨front, last, rfl⟩ := (List.eq_nil_or_concat ys).resolve_left hys
    rw [List.concat_eq_append, ← List.append_assoc, List.getLast?_concat, List.getLast?_concat]
  rw [finalToken, finalToken, List.find?_append, hfind, Option.none_or, hlast]

end RecordFlow.Script
