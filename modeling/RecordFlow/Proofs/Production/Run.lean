/-
# Running productions

What a run of a production looks like, one step at a time. A run that succeeds is taken apart into
the runs of its parts, and a run is put together from them. The statements here are about single
tokens and single binds; which words a production reads is said elsewhere.
-/

import RecordFlow.Script.Production.Statement

namespace RecordFlow

namespace Production

variable {α β : Type}

theorem bind_of_ok {p : Production α} {f : α → Production β} {ts rest : List Token} {a : α}
    (h : p ts = .ok a rest) : (p >>= f) ts = f a rest := by
  change EStateM.bind p f ts = _
  rw [EStateM.bind, h]

theorem bind_of_error {p : Production α} {f : α → Production β} {ts rest : List Token}
    {what : Expected} (h : p ts = .error what rest) : (p >>= f) ts = .error what rest := by
  change EStateM.bind p f ts = _
  rw [EStateM.bind, h]

/-- A sequence succeeds only if both of its parts do. -/
theorem bind_eq_ok {p : Production α} {f : α → Production β} {ts rest : List Token} {b : β}
    (h : (p >>= f) ts = .ok b rest) :
    ∃ a middle, p ts = .ok a middle ∧ f a middle = .ok b rest := by
  cases hp : p ts with
  | ok a middle => exact ⟨a, middle, rfl, by rw [← h, bind_of_ok hp]⟩
  | error what middle =>
      rw [bind_of_error hp] at h
      exact nomatch h

/-- A sequence fails where its first part fails, or behind it. -/
theorem bind_eq_error {p : Production α} {f : α → Production β} {ts rest : List Token}
    {what : Expected} (h : (p >>= f) ts = .error what rest) :
    p ts = .error what rest ∨ ∃ a middle, p ts = .ok a middle ∧ f a middle = .error what rest := by
  cases hp : p ts with
  | ok a middle => exact .inr ⟨a, middle, rfl, by rw [← h, bind_of_ok hp]⟩
  | error other middle =>
      rw [bind_of_error hp] at h
      cases h
      exact .inl rfl

theorem pure_eq_ok {a b : α} {ts rest : List Token}
    (h : (pure a : Production α) ts = .ok b rest) : a = b ∧ ts = rest := by
  cases h
  exact ⟨rfl, rfl⟩

/-- What a successful production leaves is an end of what it was given. -/
theorem Forward.length_le {p : Production α} (hp : Forward p) {ts rest : List Token} {a : α}
    (h : p ts = .ok a rest) : rest.length ≤ ts.length := by
  have hleft := hp ts
  rw [left, h] at hleft
  exact hleft.length_le

theorem choose_cons {what : Expected} {after? : Token → Option (Production α)} {t : Token}
    {p : Production α} (h : after? t = some p) (ts : List Token) :
    choose what after? (t :: ts) = p ts := by
  simp only [choose, h]

/-- A choice that its token settles. -/
theorem choose_leaf {what : Expected} {after? : Token → Option (Production α)} {t : Token}
    {a b : α} (h : after? t = some (pure b)) (hab : a = b) (ts : List Token) :
    choose what after? (t :: ts) = .ok a ts := by
  rw [choose_cons h, hab]
  rfl

theorem choose_eq_ok {what : Expected} {after? : Token → Option (Production α)}
    {ts rest : List Token} {a : α} (h : choose what after? ts = .ok a rest) :
    ∃ t p behind, ts = t :: behind ∧ after? t = some p ∧ p behind = .ok a rest := by
  cases ts with
  | nil => cases h
  | cons t behind =>
      cases hafter : after? t with
      | none =>
          simp only [choose, hafter] at h
          cases h
      | some p => exact ⟨t, p, behind, rfl, hafter, by rw [← h, choose_cons hafter]⟩

/-- A choice fails in front of its token, or behind it. -/
theorem choose_eq_error {expected what : Expected} {after? : Token → Option (Production α)}
    {ts rest : List Token} (h : choose expected after? ts = .error what rest) :
    ts = rest ∨
      ∃ t p behind, ts = t :: behind ∧ after? t = some p ∧ p behind = .error what rest := by
  cases ts with
  | nil =>
      cases h
      exact .inl rfl
  | cons t behind =>
      cases hafter : after? t with
      | none =>
          simp only [choose, hafter] at h
          cases h
          exact .inl rfl
      | some p => exact .inr ⟨t, p, behind, rfl, hafter, by rw [← h, choose_cons hafter]⟩

theorem take_cons {kind : TokenKind} {t : Token} (h : t.kind = kind) (what : Expected)
    (ts : List Token) : take kind what (t :: ts) = .ok t ts :=
  choose_cons (if_pos h) ts

theorem take_eq_ok {kind : TokenKind} {what : Expected} {ts rest : List Token} {t : Token}
    (h : take kind what ts = .ok t rest) : t.kind = kind ∧ ts = t :: rest := by
  obtain ⟨u, p, behind, rfl, hafter, hp⟩ := choose_eq_ok h
  split at hafter
  · next hkind =>
      cases hafter
      obtain ⟨rfl, rfl⟩ := pure_eq_ok hp
      exact ⟨hkind, rfl⟩
  · exact nomatch hafter

/-- A token that is not of the kind wanted is left where it is. -/
theorem take_eq_error {kind : TokenKind} {expected what : Expected} {ts rest : List Token}
    (h : take kind expected ts = .error what rest) : ts = rest := by
  rcases choose_eq_error h with hleft | ⟨t, p, behind, -, hafter, hp⟩
  · exact hleft
  · split at hafter
    · cases hafter
      cases hp
    · exact nomatch hafter

/-- Read a token that passes a test if it comes next. Both ways to look ahead have this form. -/
def acceptIf (test : Token → Bool) : Production (Option Token)
  | t :: rest => if test t then .ok (some t) rest else .ok none (t :: rest)
  | [] => .ok none []

theorem accept?_eq_acceptIf (kind : TokenKind) : accept? kind = acceptIf (·.kind == kind) := by
  funext ts
  cases ts with
  | nil => rfl
  | cons t rest => simp only [accept?, acceptIf, beq_iff_eq]

theorem joinOperator?_eq_acceptIf : Source.joinOperator? = acceptIf (·.kind.isJoinOperator) := by
  funext ts
  cases ts with
  | nil => rfl
  | cons t rest => rfl

theorem acceptIf_eq_ok {test : Token → Bool} {ts rest : List Token} {found : Option Token}
    (h : acceptIf test ts = .ok found rest) :
    (∃ t, found = some t ∧ test t ∧ ts = t :: rest) ∨ found = none ∧ ts = rest := by
  cases ts with
  | nil =>
      cases h
      exact .inr ⟨rfl, rfl⟩
  | cons t behind =>
      rw [acceptIf] at h
      split at h
      · next htest =>
          cases h
          exact .inl ⟨t, rfl, htest, rfl⟩
      · cases h
        exact .inr ⟨rfl, rfl⟩

theorem acceptIf_cons {test : Token → Bool} {t : Token} (h : test t) (ts : List Token) :
    acceptIf test (t :: ts) = .ok (some t) ts := by
  rw [acceptIf, if_pos h]

theorem acceptIf_of_not {test : Token → Bool} {ts : List Token}
    (h : ∀ t ∈ ts.head?, ¬test t) : acceptIf test ts = .ok none ts := by
  cases ts with
  | nil => rfl
  | cons t rest => rw [acceptIf, if_neg (h t rfl)]

/-- Whether the first of the tokens is of none of the given kinds. -/
def Avoids (kinds : List TokenKind) (ts : List Token) : Prop := ∀ t ∈ ts.head?, t.kind ∉ kinds

theorem avoids_cons {kinds : List TokenKind} {t : Token} {ts : List Token} (h : t.kind ∉ kinds) :
    Avoids kinds (t :: ts) := by
  intro u hu
  cases hu
  exact h

theorem avoids_or_eq_cons (kind : TokenKind) (ts : List Token) :
    Avoids [kind] ts ∨ ∃ t rest, ts = t :: rest ∧ t.kind = kind := by
  cases ts with
  | nil => exact .inl fun t ht => nomatch ht
  | cons t rest =>
      by_cases h : t.kind = kind
      · exact .inr ⟨t, rest, rfl, h⟩
      · exact .inl (avoids_cons (by simpa using h))

theorem Avoids.mono {few many : List TokenKind} {ts : List Token} (h : Avoids many ts)
    (hsub : few ⊆ many) : Avoids few ts := fun t ht hmem => h t ht (hsub hmem)

theorem accept?_cons {kind : TokenKind} {t : Token} (h : t.kind = kind) (ts : List Token) :
    accept? kind (t :: ts) = .ok (some t) ts := by
  rw [accept?, if_pos h]

theorem accept?_of_avoids {kind : TokenKind} {ts : List Token} (h : Avoids [kind] ts) :
    accept? kind ts = .ok none ts := by
  cases ts with
  | nil => rfl
  | cons t rest =>
      have hkind : t.kind ≠ kind := fun heq => h t rfl (by simp [heq])
      rw [accept?, if_neg hkind]

/-- What begins neither a part of a field nor another field. -/
def fieldTails : List TokenKind := [.punctuation .dot, .keyword .AS, .punctuation .comma]

end Production

/-- What begins a join. -/
def Source.joinWords : List TokenKind :=
  [.keyword .INNER, .keyword .LEFT, .keyword .RIGHT, .keyword .OUTER]

/-- What begins a tail of a source. -/
def Source.tails : List TokenKind := .keyword .AS :: .keyword .WHERE :: joinWords

theorem Source.mem_joinWords_of_isJoinOperator {kind : TokenKind} (h : kind.isJoinOperator) :
    kind ∈ joinWords := by
  unfold TokenKind.isJoinOperator at h
  split at h
  case h_5 => exact nomatch h
  all_goals decide

theorem Source.mem_tails_of_isJoinOperator {kind : TokenKind} (h : kind.isJoinOperator) :
    kind ∈ tails :=
  .tail _ (.tail _ (mem_joinWords_of_isJoinOperator h))

open Production

theorem Name.production_cons {t : Token} (h : t.kind = .identifier) (what : Expected)
    (ts : List Token) : Name.production what (t :: ts) = .ok (.ofToken t) ts :=
  bind_of_ok (take_cons h what ts)

theorem TextLiteral.production_cons {t : Token} (h : t.kind = .string) (what : Expected)
    (ts : List Token) : TextLiteral.production what (t :: ts) = .ok (.ofToken t) ts :=
  bind_of_ok (take_cons h what ts)

theorem Expression.production_cons {t : Token} (h : t.kind = .expression) (what : Expected)
    (ts : List Token) : Expression.production what (t :: ts) = .ok (.ofToken t) ts :=
  bind_of_ok (take_cons h what ts)

/-- A statement is closed by the semicolon in front of what is left. -/
theorem Statement.closed_eq_ok {body : Production Statement} {ts rest : List Token}
    {statement : Statement} (h : Statement.closed body ts = .ok statement rest) :
    ∃ semicolon, semicolon.kind = .punctuation .semicolon ∧
      body ts = .ok statement (semicolon :: rest) := by
  obtain ⟨_, middle, hbody, hmark⟩ := bind_eq_ok h
  obtain ⟨semicolon, left, htake, hpure⟩ := bind_eq_ok hmark
  obtain ⟨hkind, rfl⟩ := take_eq_ok htake
  obtain ⟨rfl, rfl⟩ := pure_eq_ok hpure
  exact ⟨semicolon, hkind, hbody⟩

/-- What is read as a field does not begin with a star. -/
theorem Field.avoids_star_of_ok {ts rest : List Token} {field : Field}
    (h : Field.production ts = .ok field rest) : Avoids [.punctuation .star] ts := by
  obtain ⟨value, middle, hvalue, -⟩ := bind_eq_ok h
  obtain ⟨t, p, behind, rfl, hafter, -⟩ := choose_eq_ok hvalue
  apply avoids_cons
  intro hstar
  rw [List.mem_singleton] at hstar
  simp only [FieldValue.after?, hstar] at hafter
  exact nomatch hafter

end RecordFlow
