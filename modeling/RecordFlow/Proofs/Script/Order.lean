/-
# The order of errors

Errors are found from left to right, and no token is blamed twice. Recovery may stop at the very
token that was just blamed, but only where it looks like the beginning of a statement; such a token
is read as one by the next round, which then can blame nothing but a later token. So the blamed
tokens are some of the tokens that were read, in their order, and at most once the one that marks
the end of the text.
-/

import RecordFlow.Proofs.Script.Rounds

namespace RecordFlow.Script

variable {final t : Token} {rest behind : List Token}

/-- The tokens that the rounds to come may blame. One that begins a statement, at the front, is not
among them. -/
def blamable : List Token → List Token
  | [] => []
  | t :: rest => if (Statement.body? t).isSome then rest else t :: rest

theorem blamable_sublist (ts : List Token) : (blamable ts).Sublist ts := by
  cases ts with
  | nil => exact List.Sublist.refl _
  | cons t rest =>
      rw [blamable]
      split
      · exact List.sublist_cons_self t rest
      · exact List.Sublist.refl _

/-- What looks like the beginning of a statement is read as one. -/
theorem isSome_body_of_beginsStatement (h : beginsStatement (t :: rest)) :
    (Statement.body? t).isSome := by
  unfold beginsStatement at h
  unfold Statement.body?
  dsimp only at h
  split at h
  case h_7 => exact nomatch h
  all_goals next hkind => simp [hkind]

/-- Recovery from a blamed token, even where it stops at this token, leaves only later ones to
blame. -/
theorem blamable_recover_sublist (t : Token) (rest : List Token) :
    (blamable (recover (t :: rest))).Sublist rest := by
  rw [recover]
  split
  · next hbegins =>
      have hrest : blamable (t :: rest) = rest := if_pos (isSome_body_of_beginsStatement hbegins)
      exact hrest.symm ▸ List.Sublist.refl rest
  · split
    · exact blamable_sublist rest
    · exact (blamable_sublist _).trans (recover_suffix rest).sublist

/-- A round blames the end of the text and leaves nothing, or it blames one of the tokens that may
be blamed and leaves only later ones to blame. -/
theorem blamable_of_round {e : ParseError} (h : round final t rest = (.error e, behind)) :
    e.found = final ∧ behind = [] ∨
      (e.found :: blamable behind).Sublist (blamable (t :: rest)) := by
  rcases round_eq_error h with
    ⟨hbody, hfound, rfl⟩ | ⟨body, what, left, hbody, -, hleft, hfound, rfl⟩
  · right
    rw [hfound, blamable, hbody, if_neg (by simp)]
    exact ((blamable_sublist _).trans (recoverFrom_suffix t rest).sublist).cons_cons t
  · rw [hfound, blamable, hbody, if_pos (by simp)]
    cases left with
    | nil => exact .inl ⟨rfl, rfl⟩
    | cons u more =>
        exact .inr (((blamable_recover_sublist u more).cons_cons u).trans hleft.sublist)

/-- The tokens that are blamed stand in this order among those that were read, and no token is
blamed twice. -/
theorem found_sublist_blamable (final : Token) (ts : List Token) :
    ((readStatements final ts).2.map ParseError.found).Sublist (blamable ts ++ [final]) := by
  induction ts using rounds_induction final with
  | nil => simp [readStatements]
  | ok t rest statement behind hround ih =>
      obtain ⟨body, hbody, -⟩ := round_eq_ok_iff.mp hround
      have hsuffix := suffix_of_round hround
      rw [readStatements_of_ok hround, blamable, hbody, if_pos (by simp)]
      exact ih.trans (((blamable_sublist behind).trans hsuffix.sublist).append_right [final])
  | error t rest e behind hround ih =>
      rw [readStatements_of_error hround, List.map_cons]
      rcases blamable_of_round hround with ⟨hfound, rfl⟩ | hlater
      · rw [hfound]
        simp [readStatements]
      · exact (ih.cons_cons e.found).trans (hlater.append_right [final])

end RecordFlow.Script
