/-
# Productions end at a semicolon

No production inside a statement reads a semicolon. It stops in front of the first one at the
latest, whether it succeeds or fails, and what stands behind that semicolon makes no difference to
it. Bounds on repetition and nesting count the tokens behind the semicolon too, which is harmless
because a larger bound changes nothing.
-/

import RecordFlow.Proofs.Production.Built

namespace RecordFlow

namespace Production

variable {α β : Type}

/-- A result together with the tokens that are left. -/
def outcome : Except Expected α → List Token → EStateM.Result Expected (List Token) α
  | .ok a, rest => .ok a rest
  | .error what, rest => .error what rest

theorem outcome_inj {r s : Except Expected α} {us vs : List Token}
    (h : outcome r us = outcome s vs) : r = s ∧ us = vs := by
  cases r with
  | ok a =>
      cases s with
      | ok b =>
          cases h
          exact ⟨rfl, rfl⟩
      | error what => exact nomatch h
  | error what =>
      cases s with
      | ok b => exact nomatch h
      | error other =>
          cases h
          exact ⟨rfl, rfl⟩

/-- A production that stops in front of a semicolon at the latest and to which the tokens behind it
make no difference. -/
def Confined (p : Production α) : Prop :=
  ∀ (us : List Token) (semicolon : Token), semicolon.kind = .punctuation .semicolon →
    ∃ r kept, ∀ vs, p (us ++ semicolon :: vs) = outcome r (kept ++ semicolon :: vs)

theorem confined_pure (a : α) : Confined (pure a) := fun us _ _ => ⟨.ok a, us, fun _ => rfl⟩

theorem confined_fail (what : Expected) : Confined (fail what : Production α) :=
  fun us _ _ => ⟨.error what, us, fun _ => rfl⟩

theorem confined_bind {p : Production α} {f : α → Production β} (hp : Confined p)
    (hf : ∀ a, Confined (f a)) : Confined (p >>= f) := by
  intro us semicolon hkind
  obtain ⟨r, kept, hrun⟩ := hp us semicolon hkind
  cases r with
  | error what => exact ⟨.error what, kept, fun vs => bind_of_error (hrun vs)⟩
  | ok a =>
      obtain ⟨s, left, hnext⟩ := hf a kept semicolon hkind
      exact ⟨s, left, fun vs => by rw [bind_of_ok (hrun vs), hnext vs]⟩

theorem confined_acceptIf {test : Token → Bool}
    (h : ∀ t, t.kind = .punctuation .semicolon → ¬test t) : Confined (acceptIf test) := by
  intro us semicolon hkind
  cases us with
  | nil => exact ⟨.ok none, [], fun vs => if_neg (h semicolon hkind)⟩
  | cons t us =>
      by_cases htest : test t
      · exact ⟨.ok (some t), us, fun vs => if_pos htest⟩
      · exact ⟨.ok none, t :: us, fun vs => if_neg htest⟩

theorem confined_choose {what : Expected} {after? : Token → Option (Production α)}
    (hsemicolon : ∀ t, t.kind = .punctuation .semicolon → after? t = none)
    (h : ∀ t p, after? t = some p → Confined p) : Confined (choose what after?) := by
  intro us semicolon hkind
  cases us with
  | nil => exact ⟨.error what, [], fun vs => by simp [choose, hsemicolon semicolon hkind, outcome]⟩
  | cons t us =>
      cases hafter : after? t with
      | none => exact ⟨.error what, t :: us, fun vs => by simp [choose, hafter, outcome]⟩
      | some p =>
          obtain ⟨r, kept, hrun⟩ := h t p hafter us semicolon hkind
          exact ⟨r, kept, fun vs => by rw [List.cons_append, choose_cons hafter, hrun vs]⟩

/-- The bound depends on the tokens behind the semicolon, the run does not: it is the one at the
bound that the semicolon alone would give. -/
theorem confined_bounded {p : Nat → Production α} (hsettled : Settled p)
    (hp : ∀ n, Confined (p n)) : Confined (bounded p) := by
  intro us semicolon hkind
  obtain ⟨r, kept, hrun⟩ := hp (us ++ [semicolon]).length us semicolon hkind
  refine ⟨r, kept, fun vs => ?_⟩
  obtain ⟨s, left, hmore⟩ := hp (us ++ semicolon :: vs).length us semicolon hkind
  have hle : (us ++ [semicolon]).length ≤ (us ++ semicolon :: vs).length := by simp
  have hsame : outcome s (left ++ [semicolon]) = outcome r (kept ++ [semicolon]) := by
    rw [← hmore [], ← hrun [], hsettled _ _ hle]
  obtain ⟨rfl, hkept⟩ := outcome_inj hsame
  rw [bounded, hmore vs, List.append_cancel_right hkept]

/-- What a confined production has read holds no semicolon. -/
theorem Confined.semicolon_not_mem {p : Production α} (h : Confined p) {us rest : List Token}
    {r : Except Expected α} (hrun : p (us ++ rest) = outcome r rest) :
    ∀ u ∈ us, u.kind ≠ .punctuation .semicolon := by
  intro u hu hkind
  obtain ⟨front, back, rfl⟩ := List.append_of_mem hu
  obtain ⟨s, kept, hstop⟩ := h front u hkind
  have hsame := hstop (back ++ rest)
  rw [List.append_assoc, List.cons_append, hsame] at hrun
  have hlength := congrArg List.length (outcome_inj hrun).2
  simp only [List.length_append, List.length_cons] at hlength
  omega

theorem Built.confined {p : Production α} (h : Built p) : Confined p := by
  induction h with
  | pure a => exact confined_pure a
  | fail what => exact confined_fail what
  | bind _ _ hp hf => exact confined_bind hp hf
  | acceptIf h => exact confined_acceptIf h
  | choose hsemicolon _ h => exact confined_choose hsemicolon h
  | bounded hsettled _ hp => exact confined_bounded hsettled hp

end Production

end RecordFlow
