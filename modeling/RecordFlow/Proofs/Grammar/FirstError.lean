/-
# The first error is at the first wrong token

The tokens in front of the first token that is blamed begin a script, and with this token they do so
no longer. The first half holds because a statement that cannot be read on has begun a statement of
the grammar, and whatever has begun can be completed. The second half holds because statements that
were read are read again, whatever comes behind them, and because a token is blamed whatever comes
behind it.
-/

import RecordFlow.Proofs.Grammar.Acceptance
import RecordFlow.Proofs.Production.Prompt
import RecordFlow.Proofs.Token.Order

namespace RecordFlow

open Grammar Production

namespace Script

variable {final t : Token} {ts : List Token}

/-- A round that fails has read the beginning of a statement up to the token it blames, and fails
with any tokens behind that one. -/
theorem first_error_of_round {rest behind : List Token} {e : ParseError}
    (h : round final t rest = (.error e, behind)) :
    ∃ us left, t :: rest = us ++ left ∧ e.found = left.headD final ∧
      Begins (.symbol .statement) (us.map Token.kind) ∧
      ∀ u vs, left = u :: vs → ∀ other ws, (readStatements other (us ++ u :: ws)).2 ≠ [] := by
  rcases round_eq_error h with
    ⟨hbody, hfound, -⟩ | ⟨body, what, left, hbody, hclosed, -, hfound, -⟩
  · refine ⟨[], t :: rest, rfl, hfound, .stop, ?_⟩
    rintro _ _ ⟨⟩ other ws
    have hround : round other t ws = (.error (strayToken t), recoverFrom t ws) := by
      simp only [round, hbody]
    simp [readStatements_of_error hround]
  · obtain ⟨us, rfl, hus⟩ := (followsAfter_closed (followsAfter_body hbody)).halts _ _ _ hclosed
    refine ⟨t :: us, left, rfl, hfound, hus, ?_⟩
    rintro u vs rfl other ws
    have hround : round other t (us ++ u :: ws) =
        (.error ⟨.expected what, u⟩, recover (u :: ws)) := by
      simp only [round, hbody, closed_error_ahead (built_body hbody) hclosed ws, List.headD_cons]
    simp [readStatements_of_error hround]

/-- The tokens in front of the first one that is blamed begin a script, and with this one they are
not read without an error, whatever comes behind it. -/
theorem first_error_of_readStatements {e : ParseError} {more : List ParseError}
    (h : (readStatements final ts).2 = e :: more) :
    ∃ us left, ts = us ++ left ∧ e.found = left.headD final ∧
      Begins (.many (.symbol .statement)) (us.map Token.kind) ∧
      ∀ u vs, left = u :: vs → ∀ other ws, (readStatements other (us ++ u :: ws)).2 ≠ [] := by
  induction ts using rounds_induction final with
  | nil => simp [readStatements] at h
  | ok t rest statement behind hround ih =>
      rw [readStatements_of_ok hround] at h
      obtain ⟨-, us, rfl, hus⟩ := matches_of_round_eq_ok hround
      obtain ⟨vs, left, rfl, hfound, hvs, hwrong⟩ := ih h
      refine ⟨t :: us ++ vs, left, by simp, hfound, ?_, ?_⟩
      · rw [List.map_append]
        exact .more hus hvs
      · intro u tail hleft other ws
        obtain ⟨_, _, again, heq, hagain⟩ := round_of_matches other hus (vs ++ u :: ws)
        obtain ⟨rfl, rfl⟩ := List.cons.inj heq
        rw [List.append_assoc, List.cons_append, readStatements_of_ok hagain]
        exact hwrong u tail hleft other ws
  | error t rest _ behind hround ih =>
      rw [readStatements_of_error hround] at h
      obtain ⟨rfl, -⟩ := List.cons.inj h
      obtain ⟨us, left, hcut, hfound, hus, hwrong⟩ := first_error_of_round hround
      exact ⟨us, left, hcut, hfound, .first hus, hwrong⟩

/-- Tokens that begin a script are read without an error when the right ones follow them. -/
theorem exists_completion {us : List Token}
    (h : Begins (.many (.symbol .statement)) (us.map Token.kind)) :
    ∃ vs, (parse (us ++ vs)).errors = [] := by
  obtain ⟨v, hv⟩ := h.complete rfl
  let vs : List Token := v.map fun kind => .plain kind .start
  have hkinds : (us ++ vs).map Token.kind = us.map Token.kind ++ v := by
    rw [List.map_append, List.map_map]
    exact congrArg _ (List.map_id v)
  have hpass : ∀ t ∈ us ++ vs, ¬isFinal t := by
    intro t ht
    have hkind : t.kind ∈ us.map Token.kind ++ v := hkinds ▸ List.mem_map_of_mem ht
    have hfree : TokenKind.endOfFile ∉ us.map Token.kind ++ v :=
      Derives.endOfFile_not_mem (s := .script) (.symbol hv)
    simpa [isFinal] using ne_of_mem_of_not_mem hkind hfree
  refine ⟨vs, ?_⟩
  simp only [parse, body_eq_self hpass]
  exact no_errors_of_matches _ (show Derives _ _ from hkinds ▸ hv)

/-- Tokens that are read with an error, whatever comes behind them, begin no script without one. -/
theorem errors_of_wrong {us : List Token} {u : Token}
    (hpass : ∀ t ∈ us ++ [u], t.kind ≠ .endOfFile)
    (h : ∀ other ws, (readStatements other (us ++ u :: ws)).2 ≠ []) (vs : List Token) :
    (parse (us ++ [u] ++ vs)).errors ≠ [] := by
  have hbody : (us ++ [u] ++ vs).takeWhile (fun t => !isFinal t) =
      us ++ u :: vs.takeWhile fun t => !isFinal t := by
    rw [List.takeWhile_append_of_pos (by simpa [isFinal] using hpass), List.append_assoc]
    rfl
  simp only [parse, hbody]
  exact h _ _

end Script

/-- The first error is about the first wrong token: exactly one token stands at its place, the
tokens in front of this one can be continued to a script without errors, and with this one that is
not possible. -/
theorem first_error_at_first_wrong_token (source : String) (ts : List Token) (error : ParseError)
    (more : List ParseError) (hts : tokenize source = .ok ts)
    (herrors : (parse ts).errors = error :: more) :
    ∃ e, (∀ i, ts[i]?.map Token.position = some error.position ↔ i = e) ∧
      (∃ vs, (parse (ts.take e ++ vs)).errors = []) ∧
      ∀ vs, (parse (ts.take (e + 1) ++ vs)).errors ≠ [] := by
  obtain ⟨front, final, rfl, hfinal, hfront⟩ := tokens_of_tokenize hts
  have hread : ∀ vs, (parse (front ++ final :: vs)).errors =
      (Script.readStatements final front).2 := by
    intro vs
    obtain ⟨hbody, hlast⟩ := Script.body_append_final hfront hfinal vs
    simp only [parse, hbody, hlast]
  rw [hread] at herrors
  obtain ⟨us, left, rfl, hfound, hbegins, hwrong⟩ := Script.first_error_of_readStatements herrors
  refine ⟨us.length, fun i => ?_, ?_, ?_⟩
  · have hindex : (us ++ left ++ [final])[us.length]? = some error.found := by
      rw [hfound, List.append_assoc, List.getElem?_append_right (Nat.le_refl _), Nat.sub_self]
      cases left <;> rfl
    constructor
    · intro hplace
      obtain ⟨t, ht, hposition⟩ := Option.map_eq_some_iff.mp hplace
      exact index_of_position hts ht hindex hposition
    · rintro rfl
      rw [hindex]
      rfl
  · rw [List.append_assoc, List.take_left]
    exact Script.exists_completion hbegins
  · intro vs
    cases left with
    | nil =>
        -- The blamed token marks the end of the text, and nothing is read behind that.
        rw [List.append_nil] at hread herrors ⊢
        rw [List.take_of_length_le (by simp), List.append_assoc, List.singleton_append, hread]
        simp [herrors]
    | cons u left =>
        have hcut : us ++ u :: left = us ++ [u] ++ left := by simp
        have hpass : ∀ t ∈ us ++ [u], t.kind ≠ .endOfFile := fun t ht =>
          hfront t (hcut ▸ List.mem_append_left left ht)
        rw [hcut, List.append_assoc (us ++ [u]), List.take_left' (by simp)]
        exact Script.errors_of_wrong hpass (hwrong u left rfl) vs

/-- A join that lacks its second word, inside a selection and behind a statement that can be read,
is blamed where the word is missing. -/
theorem first_error_at_first_wrong_token_join :
    let source := "EXPORT a; x = SELECT * FROM (b LEFT c);"
    let error : ParseError := ⟨.expected .joinWord, ⟨.identifier, some (.text "c"), ⟨1, 37⟩⟩⟩
    ∃ ts, tokenize source = .ok ts ∧ (parse ts).errors = [error] ∧
      ∃ e, (∀ i, ts[i]?.map Token.position = some error.position ↔ i = e) ∧
        (∃ vs, (parse (ts.take e ++ vs)).errors = []) ∧
        ∀ vs, (parse (ts.take (e + 1) ++ vs)).errors ≠ [] := by
  intro source error
  have htokens : tokenize source = .ok (Scan.scan source).tokens :=
    tokenize_eq_ok_iff.mpr ⟨by decide +kernel, rfl⟩
  have herrors : (parse (Scan.scan source).tokens).errors = [error] := by decide +kernel
  exact ⟨_, htokens, herrors, first_error_at_first_wrong_token source _ error [] htokens herrors⟩

end RecordFlow
