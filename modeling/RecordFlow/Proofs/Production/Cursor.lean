/-
# Reading through a cursor

A production is a function on the tokens that are left. Here it is carried out in another way: the
tokens stand in a table, the one for the end included, and all that moves is a cursor, the number of
the token to look at next. A look outside of the table has no result. Every production of the
language is carried out by a program of such looks that always has a result: the cursor goes from a
valid number to a valid number and never back. Loops and nesting are given any bound above the
number of tokens, and the result does not depend on it, so they come to an end by themselves.
-/

import Mathlib.Tactic.Choose
import RecordFlow.Proofs.Production.Confined
import RecordFlow.Script.Parser

namespace RecordFlow

open Production

/-- How tokens are read through a cursor. -/
inductive Program : Type → Type 1
  /-- Leave the cursor and give a value. -/
  | done {α : Type} (a : α) : Program α
  /-- Leave the cursor and fail. -/
  | fail {α : Type} (what : Expected) : Program α
  /-- Do one thing after another. -/
  | chain {α β : Type} (first : Program α) (next : α → Program β) : Program β
  /-- Look at the token at the cursor. One that passes the test is passed by the cursor. -/
  | look {α : Type} (test : Token → Bool) (found : Token → Program α) (otherwise : Program α) :
      Program α
  /-- Go on with the bound that the run is given. -/
  | bounded {α : Type} (family : Nat → Program α) : Program α

/-- Run a program with the cursor at a number: the value or what was expected, and the new cursor.
There is no result if a look falls outside of the table. The token for the end of the text passes no
test. -/
def Program.walk (tokens : List Token) (bound : Nat) :
    {α : Type} → Program α → Nat → Option (Except Expected α × Nat)
  | _, .done a, i => some (.ok a, i)
  | _, .fail what, i => some (.error what, i)
  | _, .chain first next, i =>
      match first.walk tokens bound i with
      | some (.ok a, j) => (next a).walk tokens bound j
      | some (.error what, j) => some (.error what, j)
      | none => none
  | _, .look test found otherwise, i =>
      match tokens[i]? with
      | some t =>
          if !Script.isFinal t && test t then (found t).walk tokens bound (i + 1)
          else otherwise.walk tokens bound i
      | none => none
  | _, .bounded family, i => (family bound).walk tokens bound i

/-- A table in which `final` is the first token that marks the end of the text, behind `before`. -/
structure Table (tokens before : List Token) (final : Token) : Prop where
  cut : ∃ beyond, tokens = before ++ final :: beyond
  isFinal_final : Script.isFinal final
  not_isFinal_before : ∀ t ∈ before, ¬Script.isFinal t

section Look

variable {tokens before : List Token} {final : Token} {i : Nat}

theorem Table.length_lt (h : Table tokens before final) : before.length < tokens.length := by
  obtain ⟨beyond, rfl⟩ := h.cut
  rw [List.length_append, List.length_cons]
  omega

/-- Up to the end of the text, a look sees the first of the tokens that are left, or the end when
there is none. -/
theorem Table.lookup (h : Table tokens before final) (hi : i ≤ before.length) :
    (i < before.length ∧ ∃ t, tokens[i]? = some t ∧ ¬Script.isFinal t ∧
        before.drop i = t :: before.drop (i + 1)) ∨
      i = before.length ∧ tokens[i]? = some final ∧ before.drop i = [] := by
  obtain ⟨beyond, rfl⟩ := h.cut
  rcases Nat.lt_or_eq_of_le hi with hlt | rfl
  · refine .inl ⟨hlt, before[i], ?_, h.not_isFinal_before _ (List.getElem_mem hlt), ?_⟩
    · rw [List.getElem?_append_left hlt, List.getElem?_eq_getElem hlt]
    · exact List.drop_eq_getElem_cons hlt
  · exact .inr ⟨rfl, by simp, List.drop_length⟩

end Look

/-- A program that does through a cursor what a production does on the tokens left. From every
cursor up to the end of the text it comes to one that is not before it, again up to the end. -/
def Program.CarriesOut {α : Type} (program : Program α) (p : Production α) : Prop :=
  ∀ {tokens before : List Token} {final : Token} {bound i : Nat}, Table tokens before final →
    before.length ≤ bound → i ≤ before.length →
    ∃ r j, i ≤ j ∧ j ≤ before.length ∧ program.walk tokens bound i = some (r, j) ∧
      p (before.drop i) = outcome r (before.drop j)

namespace Production

variable {α β : Type}

/-- A production that some program carries out. -/
def ByCursor (p : Production α) : Prop := ∃ program : Program α, program.CarriesOut p

theorem byCursor_pure (a : α) : ByCursor (pure a) := by
  refine ⟨.done a, ?_⟩
  intro tokens before final bound i _ _ hi
  exact ⟨.ok a, i, Nat.le_refl i, hi, rfl, rfl⟩

theorem byCursor_fail (what : Expected) : ByCursor (fail what : Production α) := by
  refine ⟨.fail what, ?_⟩
  intro tokens before final bound i _ _ hi
  exact ⟨.error what, i, Nat.le_refl i, hi, rfl, rfl⟩

theorem byCursor_bind {p : Production α} {f : α → Production β} (hp : ByCursor p)
    (hf : ∀ a, ByCursor (f a)) : ByCursor (p >>= f) := by
  obtain ⟨first, hfirst⟩ := hp
  choose next hnext using hf
  refine ⟨.chain first next, ?_⟩
  intro tokens before final bound i htable hbound hi
  obtain ⟨r, j, hij, hj, hwalk, hrun⟩ := hfirst htable hbound hi
  cases r with
  | error what =>
      refine ⟨.error what, j, hij, hj, ?_, bind_of_error hrun⟩
      simp only [Program.walk, hwalk]
  | ok a =>
      obtain ⟨s, k, hjk, hk, hwalks, hruns⟩ := hnext a htable hbound hj
      refine ⟨s, k, Nat.le_trans hij hjk, hk, ?_, (bind_of_ok hrun).trans hruns⟩
      simp only [Program.walk, hwalk, hwalks]

theorem byCursor_acceptIf (test : Token → Bool) : ByCursor (acceptIf test) := by
  refine ⟨.look test (fun t => .done (some t)) (.done none), ?_⟩
  intro tokens before final bound i htable _ hi
  rcases htable.lookup hi with ⟨hlt, t, hlook, ht, hleft⟩ | ⟨rfl, hlook, hleft⟩
  · by_cases htest : test t
    · refine ⟨.ok (some t), i + 1, Nat.le_succ i, hlt, ?_, ?_⟩
      · simp [Program.walk, hlook, ht, htest]
      · rw [hleft, acceptIf_cons htest]
        rfl
    · refine ⟨.ok none, i, Nat.le_refl i, hi, ?_, ?_⟩
      · simp [Program.walk, hlook, htest]
      · rw [hleft, acceptIf, if_neg htest]
        rfl
  · refine ⟨.ok none, before.length, Nat.le_refl _, hi, ?_, ?_⟩
    · simp [Program.walk, hlook, htable.isFinal_final]
    · rw [hleft]
      rfl

theorem byCursor_choose {what : Expected} {after? : Token → Option (Production α)}
    (h : ∀ t p, after? t = some p → ByCursor p) : ByCursor (choose what after?) := by
  have hfound : ∀ t, ∃ program : Program α, ∀ p, after? t = some p → program.CarriesOut p := by
    intro t
    cases hafter : after? t with
    | none => exact ⟨.fail what, nofun⟩
    | some p =>
        obtain ⟨program, hprogram⟩ := h t p hafter
        refine ⟨program, fun q hq => ?_⟩
        cases hq
        exact hprogram
  choose found hfound using hfound
  refine ⟨.look (fun t => (after? t).isSome) found (.fail what), ?_⟩
  intro tokens before final bound i htable hbound hi
  rcases htable.lookup hi with ⟨hlt, t, hlook, ht, hleft⟩ | ⟨rfl, hlook, hleft⟩
  · cases hafter : after? t with
    | none =>
        refine ⟨.error what, i, Nat.le_refl i, hi, ?_, ?_⟩
        · simp [Program.walk, hlook, hafter]
        · simp [hleft, choose, hafter, outcome]
    | some p =>
        obtain ⟨r, j, hij, hj, hwalk, hrun⟩ := hfound t p hafter htable hbound hlt
        refine ⟨r, j, Nat.le_of_succ_le hij, hj, ?_, ?_⟩
        · simp [Program.walk, hlook, ht, hafter, hwalk]
        · rw [hleft, choose_cons hafter, hrun]
  · refine ⟨.error what, before.length, Nat.le_refl _, hi, ?_, ?_⟩
    · simp [Program.walk, hlook, htable.isFinal_final]
    · rw [hleft]
      rfl

theorem byCursor_take (kind : TokenKind) (what : Expected) : ByCursor (take kind what) := by
  apply byCursor_choose
  intro t p hafter
  split at hafter
  · cases hafter
    exact byCursor_pure t
  · exact nomatch hafter

/-- The run may use a larger bound than the production does. -/
theorem byCursor_bounded {p : Nat → Production α} (hsettled : Settled p)
    (hp : ∀ n, ByCursor (p n)) : ByCursor (bounded p) := by
  choose family hfamily using hp
  refine ⟨.bounded family, ?_⟩
  intro tokens before final bound i htable hbound hi
  obtain ⟨r, j, hij, hj, hwalk, hrun⟩ := hfamily bound htable hbound hi
  refine ⟨r, j, hij, hj, hwalk, ?_⟩
  have hleft : (before.drop i).length ≤ bound := by
    rw [List.length_drop]
    omega
  rw [bounded, ← hsettled bound _ hleft, hrun]

theorem Built.byCursor {p : Production α} (h : Built p) : ByCursor p := by
  induction h with
  | pure a => exact byCursor_pure a
  | fail what => exact byCursor_fail what
  | bind _ _ hp hf => exact byCursor_bind hp hf
  | acceptIf _ => exact byCursor_acceptIf _
  | choose _ _ h => exact byCursor_choose h
  | bounded hsettled _ hp => exact byCursor_bounded hsettled hp

/-- Statements are read through a cursor, semicolon included. -/
theorem byCursor_closed {t : Token} {body : Production Statement}
    (h : Statement.body? t = some body) : ByCursor (Statement.closed body) :=
  byCursor_bind (built_body h).byCursor fun statement =>
    byCursor_bind (byCursor_take _ _) fun _ => byCursor_pure statement

end Production

end RecordFlow
