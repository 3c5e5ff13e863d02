/-
# Productions look one token ahead

Of the tokens that a production leaves it has looked at the first one at most. So with other tokens
behind that one it does the same and stops in front of the same token. In particular a token that is
blamed is blamed whatever comes behind it.
-/

import RecordFlow.Proofs.Production.Confined

namespace RecordFlow

namespace Production

variable {α β : Type}

/-- A production that goes forward and to which the tokens behind the first one it leaves make no
difference. -/
structure Prompt (p : Production α) : Prop where
  forward : Forward p
  ahead : ∀ (us : List Token) (u : Token) (vs : List Token) (r : Except Expected α),
    p (us ++ u :: vs) = outcome r (u :: vs) → ∀ ws, p (us ++ u :: ws) = outcome r (u :: ws)

theorem Forward.suffix_of_outcome {p : Production α} (hp : Forward p) {ts rest : List Token}
    {r : Except Expected α} (h : p ts = outcome r rest) : rest <:+ ts := by
  have hleft := hp ts
  unfold left at hleft
  rw [h] at hleft
  cases r with
  | ok a => exact hleft
  | error what => exact hleft

/-- A production that reads nothing is prompt. -/
theorem prompt_idle {p : Production α} {r : Except Expected α} (h : ∀ ts, p ts = outcome r ts) :
    Prompt p where
  forward := by
    intro ts
    unfold left
    rw [h ts]
    cases r with
    | ok a => exact List.suffix_refl ts
    | error what => exact List.suffix_refl ts
  ahead := by
    intro us u vs s hrun ws
    rw [h] at hrun
    obtain ⟨rfl, hall⟩ := outcome_inj hrun
    rw [List.append_left_eq_self.mp hall]
    exact h (u :: ws)

theorem prompt_pure (a : α) : Prompt (pure a : Production α) :=
  prompt_idle (r := .ok a) fun _ => rfl

theorem prompt_bind {p : Production α} {f : α → Production β} (hp : Prompt p)
    (hf : ∀ a, Prompt (f a)) : Prompt (p >>= f) where
  forward := forward_bind hp.forward fun a => (hf a).forward
  ahead := by
    intro us u vs r hrun ws
    cases hfirst : p (us ++ u :: vs) with
    | error what rest =>
        rw [bind_of_error hfirst] at hrun
        obtain ⟨rfl, rfl⟩ := outcome_inj (r := .error what) hrun
        exact bind_of_error (hp.ahead us u vs (.error what) hfirst ws)
    | ok a middle =>
        rw [bind_of_ok hfirst] at hrun
        -- What the first part leaves for the second begins in front of `u` or with it.
        obtain ⟨back, rfl⟩ := (hf a).forward.suffix_of_outcome hrun
        obtain ⟨front, hfront⟩ := hp.forward.suffix_of_outcome (r := .ok a) hfirst
        rw [← List.append_assoc] at hfront
        obtain rfl := List.append_cancel_right hfront
        have hsame : p (front ++ back ++ u :: ws) = .ok a (back ++ u :: ws) := by
          rw [List.append_assoc] at hfirst ⊢
          cases back with
          | nil => exact hp.ahead front u vs (.ok a) hfirst ws
          | cons w back => exact hp.ahead front w (back ++ u :: vs) (.ok a) hfirst (back ++ u :: ws)
        rw [bind_of_ok hsame]
        exact (hf a).ahead back u vs r hrun ws

theorem prompt_acceptIf (test : Token → Bool) : Prompt (acceptIf test) where
  forward := by
    intro ts
    cases ts with
    | nil => exact List.suffix_refl _
    | cons t rest =>
        by_cases htest : test t
        · simp [left, acceptIf, htest]
        · simp [left, acceptIf, htest]
  ahead := by
    intro us u vs r hrun ws
    cases us with
    | nil =>
        by_cases htest : test u
        · rw [List.nil_append, acceptIf_cons htest] at hrun
          obtain ⟨-, hvs⟩ := outcome_inj (r := .ok (some u)) hrun
          exact absurd hvs.symm (List.cons_ne_self u vs)
        · have hnone : ∀ rest, acceptIf test (u :: rest) = .ok none (u :: rest) :=
            fun rest => if_neg htest
          rw [List.nil_append, hnone] at hrun
          obtain ⟨rfl, -⟩ := outcome_inj (r := .ok none) hrun
          exact hnone ws
    | cons t us =>
        by_cases htest : test t
        · rw [List.cons_append, acceptIf_cons htest] at hrun
          obtain ⟨rfl, hread⟩ := outcome_inj (r := .ok (some t)) hrun
          rw [List.append_left_eq_self.mp hread]
          exact acceptIf_cons htest (u :: ws)
        · rw [List.cons_append, acceptIf, if_neg htest] at hrun
          have hall : t :: us ++ u :: vs = u :: vs := (outcome_inj (r := .ok none) hrun).2
          exact absurd (List.append_left_eq_self.mp hall) (List.cons_ne_nil t us)

theorem prompt_choose {what : Expected} {after? : Token → Option (Production α)}
    (h : ∀ t p, after? t = some p → Prompt p) : Prompt (choose what after?) where
  forward := forward_choose fun t p hafter => (h t p hafter).forward
  ahead := by
    intro us u vs r hrun ws
    have hnone : ∀ t rest, after? t = none → choose what after? (t :: rest) =
        outcome (.error what) (t :: rest) := by
      intro t rest hafter
      simp only [choose, hafter, outcome]
    cases us with
    | nil =>
        cases hafter : after? u with
        | none =>
            rw [List.nil_append, hnone u vs hafter] at hrun
            obtain ⟨rfl, -⟩ := outcome_inj hrun
            exact hnone u ws hafter
        | some p =>
            rw [List.nil_append, choose_cons hafter] at hrun
            have hshorter := ((h u p hafter).forward.suffix_of_outcome hrun).length_le
            exact absurd hshorter (Nat.not_succ_le_self vs.length)
    | cons t us =>
        cases hafter : after? t with
        | none =>
            rw [List.cons_append, hnone t _ hafter] at hrun
            have hall : t :: us ++ u :: vs = u :: vs := (outcome_inj hrun).2
            exact absurd (List.append_left_eq_self.mp hall) (List.cons_ne_nil t us)
        | some p =>
            rw [List.cons_append, choose_cons hafter] at hrun ⊢
            exact (h t p hafter).ahead us u vs r hrun ws

theorem prompt_take (kind : TokenKind) (what : Expected) : Prompt (take kind what) := by
  apply prompt_choose
  intro t p hafter
  split at hafter
  · cases hafter
    exact prompt_pure t
  · exact nomatch hafter

theorem prompt_bounded {p : Nat → Production α} (hsettled : Settled p) (hp : ∀ n, Prompt (p n)) :
    Prompt (bounded p) where
  forward := forward_bounded fun n => (hp n).forward
  ahead := by
    intro us u vs r hrun ws
    have hvs := Nat.le_max_left (us ++ u :: vs).length (us ++ u :: ws).length
    have hws := Nat.le_max_right (us ++ u :: vs).length (us ++ u :: ws).length
    rw [bounded, ← hsettled _ _ hvs] at hrun
    rw [bounded, ← hsettled _ _ hws]
    exact (hp _).ahead us u vs r hrun ws

theorem Built.prompt {p : Production α} (h : Built p) : Prompt p := by
  induction h with
  | pure a => exact prompt_pure a
  | fail what => exact prompt_idle (r := .error what) fun _ => rfl
  | bind _ _ hp hf => exact prompt_bind hp hf
  | acceptIf _ => exact prompt_acceptIf _
  | choose _ _ h => exact prompt_choose h
  | bounded hsettled _ hp => exact prompt_bounded hsettled hp

/-- Where a statement cannot be read on, it cannot be read on with other tokens behind the one that
is blamed either. -/
theorem closed_error_ahead {body : Production Statement} (h : Built body) {us vs : List Token}
    {u : Token} {what : Expected}
    (hrun : Statement.closed body (us ++ u :: vs) = .error what (u :: vs)) (ws : List Token) :
    Statement.closed body (us ++ u :: ws) = .error what (u :: ws) := by
  have hclosed : Prompt (Statement.closed body) :=
    prompt_bind h.prompt fun statement => prompt_bind (prompt_take _ _) fun _ =>
      prompt_pure statement
  exact hclosed.ahead us u vs (.error what) hrun ws

end Production

end RecordFlow
