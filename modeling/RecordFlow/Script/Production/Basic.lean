/-
# Productions

A production reads from the beginning of a list of tokens. It leaves the tokens it did not read,
also when it fails, and then the first of these is the one to blame. No production goes back: what
is left is always an end of what was given. The list holds no token for the end of the text, so an
empty list is the end.
-/

import RecordFlow.Script.Basic
import RecordFlow.Script.Error

namespace RecordFlow

/-- A reader of tokens that fails by naming what it expected. -/
abbrev Production := EStateM Expected (List Token)

namespace Production

variable {α β : Type}

/-- The tokens that a production leaves. -/
def left (p : Production α) (ts : List Token) : List Token :=
  match p ts with
  | .ok _ rest => rest
  | .error _ rest => rest

/-- A production that only ever leaves an end of the tokens it is given. -/
def Forward (p : Production α) : Prop := ∀ ts, p.left ts <:+ ts

/-- Fail in front of the next token. -/
def fail (what : Expected) : Production α := fun ts => .error what ts

/-- Read the next token and go on as it says. A token that says nothing is not read. -/
def choose (what : Expected) (after? : Token → Option (Production α)) : Production α
  | t :: rest =>
      match after? t with
      | some p => p rest
      | none => .error what (t :: rest)
  | [] => .error what []

/-- Read a token of the given kind. -/
def take (kind : TokenKind) (what : Expected) : Production Token :=
  choose what fun t => if t.kind = kind then some (pure t) else none

/-- Read a token of the given kind if it comes next. -/
def accept? (kind : TokenKind) : Production (Option Token)
  | t :: rest => if t.kind = kind then .ok (some t) rest else .ok none (t :: rest)
  | [] => .ok none []

/-- Run a family of productions at the number of tokens that are left. A loop that reads a token in
each round is given enough rounds this way. -/
def bounded (p : Nat → Production α) : Production α := fun ts => p ts.length ts

/-- Read a reserved word. -/
def word (keyword : Keyword) (what : Expected) : Production Token := take (.keyword keyword) what

/-- Read a punctuation mark. -/
def mark (punctuation : Punctuation) (what : Expected) : Production Token :=
  take (.punctuation punctuation) what

end Production

namespace Name

/-- The name that a token carries. -/
def ofToken (t : Token) : Name := ⟨t, t.text?.getD ""⟩

/-- Read a name. -/
def production (what : Expected) : Production Name := do
  let t ← Production.take .identifier what
  return ofToken t

end Name

namespace TextLiteral

/-- The text that a token carries. -/
def ofToken (t : Token) : TextLiteral := ⟨t, t.text?.getD ""⟩

/-- Read a text in quotes. -/
def production (what : Expected) : Production TextLiteral := do
  let t ← Production.take .string what
  return ofToken t

end TextLiteral

/-- The number that a token carries. -/
def NumberLiteral.ofToken (t : Token) : NumberLiteral := ⟨t, t.number?.getD .zero⟩

/-- The truth value that a token carries. -/
def TruthLiteral.ofToken (t : Token) : TruthLiteral := ⟨t, t.truth?.getD false⟩

namespace Expression

/-- The code that a token carries. -/
def ofToken (t : Token) : Expression := ⟨t, t.text?.getD ""⟩

/-- Read an expression. -/
def production (what : Expected) : Production Expression := do
  let t ← Production.take .expression what
  return ofToken t

end Expression

/-! ## Productions go forward -/

namespace Production

variable {α β : Type}

theorem forward_pure (a : α) : Forward (pure a) := fun ts => List.suffix_refl ts

theorem forward_fail (what : Expected) : Forward (fail what : Production α) :=
  fun ts => List.suffix_refl ts

theorem forward_bind {p : Production α} {f : α → Production β} (hp : Forward p)
    (hf : ∀ a, Forward (f a)) : Forward (p >>= f) := by
  intro ts
  have hleft := hp ts
  have hbind : (p >>= f) ts = EStateM.bind p f ts := rfl
  unfold left at hleft ⊢
  rw [hbind]
  unfold EStateM.bind
  cases h : p ts with
  | ok a rest =>
      rw [h] at hleft
      exact (hf a rest).trans hleft
  | error e rest =>
      rw [h] at hleft
      exact hleft

theorem forward_choose {what : Expected} {after? : Token → Option (Production α)}
    (h : ∀ t p, after? t = some p → Forward p) : Forward (choose what after?) := by
  intro ts
  cases ts with
  | nil => exact List.suffix_refl _
  | cons t rest =>
      cases hafter : after? t with
      | none => simp [left, choose, hafter]
      | some p =>
          have hleft : (choose what after?).left (t :: rest) = p.left rest := by
            simp [left, choose, hafter]
          rw [hleft]
          exact (h t p hafter rest).trans (List.suffix_cons t rest)

theorem forward_take (kind : TokenKind) (what : Expected) : Forward (take kind what) := by
  apply forward_choose
  intro t p h
  split at h
  · cases h
    exact forward_pure t
  · exact nomatch h

theorem forward_accept? (kind : TokenKind) : Forward (accept? kind) := by
  intro ts
  cases ts with
  | nil => exact List.suffix_refl _
  | cons t rest =>
      unfold left accept?
      by_cases h : t.kind = kind
      · simp [h]
      · simp [h]

theorem forward_bounded {p : Nat → Production α} (hp : ∀ n, Forward (p n)) :
    Forward (bounded p) := fun ts => hp ts.length ts

theorem forward_name (what : Expected) : Forward (Name.production what) :=
  forward_bind (forward_take _ _) fun _ => forward_pure _

theorem forward_text (what : Expected) : Forward (TextLiteral.production what) :=
  forward_bind (forward_take _ _) fun _ => forward_pure _

theorem forward_expression (what : Expected) : Forward (Expression.production what) :=
  forward_bind (forward_take _ _) fun _ => forward_pure _

end Production

end RecordFlow
