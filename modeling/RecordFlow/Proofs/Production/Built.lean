/-
# How productions are built

All that is read inside a statement is read in five ways: a production does nothing or fails, reads
one token that decides how to go on, looks whether a token comes next, does one thing after another,
or runs a family at a bound that is large enough. What each of these keeps, every production of the
language has. A semicolon is never read in any of these ways.
-/

import RecordFlow.Proofs.Production.Bound

namespace RecordFlow

namespace Production

/-- The productions that are put together in these ways and read no semicolon. -/
inductive Built : {α : Type} → Production α → Prop
  | pure {α : Type} (a : α) : Built (pure a : Production α)
  | fail {α : Type} (what : Expected) : Built (fail what : Production α)
  | bind {α β : Type} {p : Production α} {f : α → Production β} (hp : Built p)
      (hf : ∀ a, Built (f a)) : Built (p >>= f)
  | acceptIf {test : Token → Bool} (h : ∀ t, t.kind = .punctuation .semicolon → ¬test t) :
      Built (acceptIf test)
  | choose {α : Type} {what : Expected} {after? : Token → Option (Production α)}
      (hsemicolon : ∀ t, t.kind = .punctuation .semicolon → after? t = none)
      (h : ∀ t p, after? t = some p → Built p) : Built (choose what after?)
  | bounded {α : Type} {p : Nat → Production α} (hsettled : Settled p) (hp : ∀ n, Built (p n)) :
      Built (bounded p)

theorem built_accept? {kind : TokenKind} (h : kind ≠ .punctuation .semicolon) :
    Built (accept? kind) := by
  rw [accept?_eq_acceptIf]
  apply Built.acceptIf
  intro t ht htest
  exact h ((eq_of_beq htest).symm.trans ht)

theorem built_take {kind : TokenKind} {what : Expected} (h : kind ≠ .punctuation .semicolon) :
    Built (take kind what) := by
  apply Built.choose
  · intro t ht
    exact if_neg fun heq => h (heq.symm.trans ht)
  · intro t p hafter
    split at hafter
    · cases hafter
      exact .pure t
    · exact nomatch hafter

theorem built_word (keyword : Keyword) (what : Expected) : Built (word keyword what) :=
  built_take nofun

theorem built_mark {punctuation : Punctuation} {what : Expected}
    (h : punctuation ≠ .semicolon) : Built (mark punctuation what) :=
  built_take fun heq => h (TokenKind.punctuation.inj heq)

theorem built_name (what : Expected) : Built (Name.production what) :=
  .bind (built_take (by decide)) fun _ => .pure _

theorem built_text (what : Expected) : Built (TextLiteral.production what) :=
  .bind (built_take (by decide)) fun _ => .pure _

theorem built_expression (what : Expected) : Built (Expression.production what) :=
  .bind (built_take (by decide)) fun _ => .pure _

theorem built_afterName (first : Name) : Built (FieldValue.afterName first) := by
  apply Built.bind (built_accept? (by decide))
  intro found
  cases found with
  | none => exact .pure _
  | some _ => exact .bind (built_name _) fun _ => .pure _

theorem built_fieldValue : Built FieldValue.production := by
  apply Built.choose
  · intro t ht
    simp only [FieldValue.after?, ht]
  · intro t p h
    unfold FieldValue.after? at h
    split at h <;> cases h
    case h_6 => exact built_afterName _
    all_goals exact .pure _

theorem built_field : Built Field.production := by
  apply Built.bind built_fieldValue
  intro value
  apply Built.bind (built_accept? (by decide))
  intro found
  cases found with
  | none => exact .pure _
  | some _ => exact .bind (built_name _) fun _ => .pure _

theorem built_moreFields (rounds : Nat) : Built (Fields.more rounds) := by
  induction rounds with
  | zero => exact .pure _
  | succ rounds ih =>
      apply Built.bind (built_accept? (by decide))
      intro found
      cases found with
      | none => exact .pure _
      | some _ =>
          exact .bind built_field fun _ => .bind ih fun _ => .pure _

theorem built_fields : Built Fields.production := by
  apply Built.bind (built_accept? (by decide))
  intro found
  cases found with
  | some _ => exact .pure _
  | none =>
      apply Built.bind built_field
      intro first
      exact .bind (.bounded Fields.settled_more built_moreFields) fun _ => .pure _

theorem built_filter : Built Filter.production? := by
  apply Built.bind (built_accept? (by decide))
  intro found
  cases found with
  | none => exact .pure _
  | some _ => exact .bind (built_expression _) fun _ => .pure _

section Nesting

variable {nested side : Production Source}

theorem built_plain (h : Built nested) : Built (Source.plain nested) := by
  apply Built.choose
  · intro t ht
    simp only [Source.after?, ht]
  · intro t p hafter
    unfold Source.after? at hafter
    split at hafter <;> cases hafter
    · exact .bind built_fields fun _ => .bind (built_word _ _) fun _ =>
        .bind (built_text _) fun _ => .pure _
    · exact .bind built_fields fun _ => .bind (built_word _ _) fun _ =>
        .bind h fun _ => .bind built_filter fun _ => .pure _
    · exact .pure _
    · exact .bind h fun _ => .bind (built_mark (by decide)) fun _ => .pure _

theorem built_aliasable (h : Built nested) : Built (Source.aliasable nested) := by
  apply Built.bind (built_plain h)
  intro source
  apply Built.bind (built_accept? (by decide))
  intro found
  cases found with
  | none => exact .pure _
  | some _ => exact .bind (built_name _) fun _ => .pure _

theorem built_joinOperator? : Built Source.joinOperator? := by
  rw [joinOperator?_eq_acceptIf]
  apply Built.acceptIf
  intro t ht
  rw [ht]
  decide

theorem built_joins (h : Built side) (rounds : Nat) (left : Source) :
    Built (Source.joins side rounds left) := by
  induction rounds generalizing left with
  | zero => exact .pure _
  | succ rounds ih =>
      apply Built.bind built_joinOperator?
      intro found
      cases found with
      | none => exact .pure _
      | some token =>
          exact .bind (built_word _ _) fun _ => .bind h fun _ =>
            .bind (built_word _ _) fun _ => .bind (built_expression _) fun _ => ih _

theorem built_within (depth : Nat) : Built (Source.within depth) := by
  induction depth with
  | zero => exact .fail _
  | succ depth ih =>
      apply Built.bind (built_aliasable ih)
      intro first
      have hside := forward_aliasable (forward_within depth)
      exact .bounded (Source.settled_joins hside first) fun rounds =>
        built_joins (built_aliasable ih) rounds first

end Nesting

theorem built_source : Built Source.production := by
  rw [Source.production_eq]
  exact built_plain (.bounded Source.settled_within built_within)

theorem built_value : Built Value.production := by
  apply Built.choose
  · intro t ht
    simp only [Value.after?, ht]
  · intro t p h
    unfold Value.after? at h
    split at h <;> cases h
    case h_6 => exact .bind (built_name _) fun _ => .pure _
    all_goals exact .pure _

theorem built_default? : Built Statement.default? := by
  apply Built.bind (built_accept? (by decide))
  intro found
  cases found with
  | none => exact .pure _
  | some _ => exact .bind built_value fun _ => .pure _

theorem built_afterAt (token : Token) : Built (Statement.afterAt token) := by
  apply Built.bind (built_name _)
  intro name
  apply Built.bind (built_accept? (by decide))
  intro found
  cases found with
  | none =>
      exact .bind (built_mark (by decide)) fun _ => .bind built_value fun _ => .pure _
  | some _ =>
      exact .bind (built_name _) fun _ => .bind (built_mark (by decide)) fun _ =>
        .bind built_value fun _ => .pure _

/-- The body of a statement, its semicolon excluded, is built in these ways. -/
theorem built_body {t : Token} {p : Production Statement} (h : Statement.body? t = some p) :
    Built p := by
  unfold Statement.body? at h
  split at h <;> cases h
  · exact .bind (built_mark (by decide)) fun _ => .bind built_source fun _ => .pure _
  · exact .bind built_source fun _ => .bind (built_word _ _) fun _ =>
      .bind (built_text _) fun _ => .pure _
  · exact built_afterAt t
  · exact .bind (built_mark (by decide)) fun _ => .bind (built_name _) fun _ =>
      .bind (built_mark (by decide)) fun _ => .bind (built_name _) fun _ =>
        .bind built_default? fun _ => .pure _
  · exact .bind (built_name _) fun _ => .bind (built_word _ _) fun _ =>
      .bind (built_text _) fun _ => .pure _
  · exact .bind (built_name _) fun _ => .pure _

end Production

end RecordFlow
