/-
# Bounds do not matter

Repetition and nesting are bounded by the number of tokens that are left. Every round of a loop and
every level of nesting reads a token, so a larger bound changes nothing. The loops and the nested
sources therefore satisfy equations in which no bound occurs, and these are what the rest of the
theory uses.
-/

import RecordFlow.Proofs.Production.Run

namespace RecordFlow

namespace Production

variable {α β : Type}

/-- Two productions that behave alike on at most `n` tokens. -/
def Agree (n : Nat) (p q : Production α) : Prop := ∀ ts : List Token, ts.length ≤ n → p ts = q ts

theorem Agree.refl (n : Nat) (p : Production α) : Agree n p p := fun _ _ => rfl

theorem agree_bind {n : Nat} {p q : Production α} {f g : α → Production β} (hp : Agree n p q)
    (hforward : Forward p) (hf : ∀ a, Agree n (f a) (g a)) : Agree n (p >>= f) (q >>= g) := by
  intro ts hts
  have hsame := hp ts hts
  cases h : p ts with
  | error what rest => rw [bind_of_error h, bind_of_error (hsame ▸ h)]
  | ok a rest =>
      rw [bind_of_ok h, bind_of_ok (hsame ▸ h)]
      exact hf a rest (Nat.le_trans (hforward.length_le h) hts)

/-- A token that was found is gone, so behind it agreement on fewer tokens is enough. -/
theorem agree_acceptIf {n : Nat} {test : Token → Bool} {f g : Option Token → Production β}
    (hsome : ∀ t, Agree n (f (some t)) (g (some t))) (hnone : Agree (n + 1) (f none) (g none)) :
    Agree (n + 1) (acceptIf test >>= f) (acceptIf test >>= g) := by
  intro ts hts
  cases h : acceptIf test ts with
  | error what rest => rw [bind_of_error h, bind_of_error h]
  | ok found rest =>
      rw [bind_of_ok h, bind_of_ok h]
      obtain ⟨t, rfl, -, rfl⟩ | ⟨rfl, rfl⟩ := acceptIf_eq_ok h
      · exact hsome t rest (Nat.le_of_succ_le_succ hts)
      · exact hnone ts hts

theorem agree_choose {n : Nat} {what : Expected} {first second : Token → Option (Production α)}
    (h : ∀ t, Option.Rel (Agree n) (first t) (second t)) :
    Agree (n + 1) (choose what first) (choose what second) := by
  intro ts hts
  cases ts with
  | nil => rfl
  | cons t rest =>
      have hrest : rest.length ≤ n := Nat.le_of_succ_le_succ hts
      have ht := h t
      simp only [choose]
      cases hfirst : first t with
      | none =>
          cases hsecond : second t with
          | none => rfl
          | some q =>
              rw [hfirst, hsecond] at ht
              cases ht
      | some p =>
          cases hsecond : second t with
          | none =>
              rw [hfirst, hsecond] at ht
              cases ht
          | some q =>
              rw [hfirst, hsecond] at ht
              cases ht with
              | some hagree => exact hagree rest hrest

theorem agree_bounded {n : Nat} {p q : Nat → Production α} (h : ∀ k, Agree n (p k) (q k)) :
    Agree n (bounded p) (bounded q) := fun ts hts => h ts.length ts hts

/-- A family of productions for which the number of tokens is a large enough bound. -/
def Settled (p : Nat → Production α) : Prop :=
  ∀ (n : Nat) (ts : List Token), ts.length ≤ n → p n ts = p ts.length ts

/-- It is enough that one more round changes nothing. -/
theorem settled_of_succ {p : Nat → Production α} (h : ∀ n, Agree n (p (n + 1)) (p n)) :
    Settled p := by
  intro n ts hts
  induction n with
  | zero => rw [Nat.le_zero.mp hts]
  | succ n ih =>
      rcases Nat.lt_or_ge n ts.length with hlt | hge
      · rw [Nat.le_antisymm hts hlt]
      · rw [h n ts hge, ih hge]

theorem Settled.agree {p : Nat → Production α} (h : Settled p) (n : Nat) :
    Agree n (p n) (bounded p) := fun ts hts => h n ts hts

end Production

open Production

namespace Fields

/-- Read one more field and what `others` reads behind it, if a comma comes next. -/
def continued (others : Production (List Field)) : Production (List Field) := do
  match ← accept? (.punctuation .comma) with
  | some _ =>
      let field ← Field.production
      let rest ← others
      return field :: rest
  | none => return []

theorem more_succ (rounds : Nat) : more (rounds + 1) = continued (more rounds) := rfl

theorem agree_continued {n : Nat} {p q : Production (List Field)} (h : Agree n p q)
    (hp : Forward p) : Agree (n + 1) (continued p) (continued q) := by
  unfold continued
  rw [accept?_eq_acceptIf]
  refine agree_acceptIf (fun comma => ?_) (Agree.refl _ _)
  exact agree_bind (Agree.refl n _) forward_field fun field =>
    agree_bind h hp fun rest => Agree.refl n _

theorem settled_more : Settled more := by
  apply settled_of_succ
  intro n
  induction n with
  | zero =>
      intro ts hts
      rw [List.length_eq_zero_iff.mp (Nat.le_zero.mp hts)]
      rfl
  | succ n ih => exact agree_continued ih (forward_moreFields _)

/-- The fields after the first. -/
def tail : Production (List Field) := bounded more

/-- A comma announces another field, and without one the list is complete. -/
theorem tail_eq : tail = continued tail := by
  funext ts
  cases ts with
  | nil => rfl
  | cons t behind =>
      rw [tail, bounded, List.length_cons, more_succ]
      exact agree_continued (settled_more.agree _) (forward_moreFields _) (t :: behind)
        (Nat.le_refl (behind.length + 1))

end Fields

namespace Source

/-- Read the rest of a join after its first word, with `left` as its left side. -/
def joinOnto (side : Production Source) (token : Token) (left : Source) : Production Source := do
  let _ ← word .JOIN .joinWord
  let right ← side
  let _ ← word .ON .joinOn
  let condition ← Expression.production .joinCondition
  return .join token left right condition

/-- Read all the joins that follow the source `left`. -/
def joinAll (side : Production Source) (left : Source) : Production Source :=
  bounded fun rounds => joins side rounds left

theorem forward_joinOnto {side : Production Source} (h : Forward side) (token : Token)
    (left : Source) : Forward (joinOnto side token left) :=
  forward_bind (forward_take _ _) fun _ => forward_bind h fun _ =>
    forward_bind (forward_take _ _) fun _ => forward_bind (forward_expression _) fun _ =>
      forward_pure _

theorem joins_succ (side : Production Source) (rounds : Nat) (left : Source) :
    joins side (rounds + 1) left = (do
      match ← acceptIf (·.kind.isJoinOperator) with
      | some token => joinOnto side token left >>= joins side rounds
      | none => return left) := by
  rw [joins, joinOperator?_eq_acceptIf]
  congr 1
  funext found
  cases found with
  | none => rfl
  | some token => simp only [joinOnto, bind_assoc, pure_bind]

theorem settled_joins {side : Production Source} (h : Forward side) (left : Source) :
    Settled fun rounds => joins side rounds left := by
  apply settled_of_succ
  intro n
  induction n generalizing left with
  | zero =>
      intro ts hts
      rw [List.length_eq_zero_iff.mp (Nat.le_zero.mp hts)]
      rfl
  | succ n ih =>
      rw [joins_succ side (n + 1), joins_succ side n]
      refine agree_acceptIf (fun token => ?_) (Agree.refl _ _)
      exact agree_bind (Agree.refl n _) (forward_joinOnto h token left) ih

/-- Joins group to the left: each one becomes the left side of the next. -/
theorem joinAll_eq {side : Production Source} (h : Forward side) (left : Source) :
    joinAll side left = (do
      match ← acceptIf (·.kind.isJoinOperator) with
      | some token => joinOnto side token left >>= joinAll side
      | none => return left) := by
  funext ts
  cases ts with
  | nil => rfl
  | cons t behind =>
      rw [joinAll, bounded, List.length_cons, joins_succ]
      refine agree_acceptIf (fun token => ?_) ?_ (t :: behind) (Nat.le_refl (behind.length + 1))
      · exact agree_bind (Agree.refl _ _) (forward_joinOnto h token left) fun joined =>
          (settled_joins h joined).agree _
      · exact Agree.refl _ _

/-- Read a source and its joins, nested as deep as the tokens allow. -/
def nested : Production Source := bounded within

theorem forward_nested : Forward nested := forward_bounded forward_within

theorem forward_side : Forward (aliasable nested) := forward_aliasable forward_nested

/-- Take an alias for a source, if one comes next. -/
def renamed (source : Source) : Production Source := do
  match ← accept? (.keyword .AS) with
  | some token =>
      let name ← Name.production .sourceAlias
      return .aliased token source name
  | none => return source

theorem aliasable_eq (inner : Production Source) : aliasable inner = plain inner >>= renamed := rfl

variable {p q : Production Source} {n : Nat}

theorem agree_plain (h : Agree n p q) (hp : Forward p) : Agree (n + 1) (plain p) (plain q) := by
  apply agree_choose
  intro t
  unfold after?
  split
  · exact .some (Agree.refl n _)
  · refine .some (agree_bind (Agree.refl n _) forward_fields fun _ => ?_)
    exact agree_bind (Agree.refl n _) (forward_take _ _) fun _ =>
      agree_bind h hp fun _ => Agree.refl n _
  · exact .some (Agree.refl n _)
  · exact .some (agree_bind h hp fun _ => Agree.refl n _)
  · exact .none

theorem agree_aliasable (h : Agree n p q) (hp : Forward p) :
    Agree (n + 1) (aliasable p) (aliasable q) :=
  agree_bind (agree_plain h hp) (forward_plain hp) fun _ => Agree.refl _ _

theorem agree_joins {side other : Production Source} (h : Agree n side other)
    (hside : Forward side) (rounds : Nat) (left : Source) :
    Agree n (joins side rounds left) (joins other rounds left) := by
  induction rounds generalizing left with
  | zero => exact Agree.refl n _
  | succ rounds ih =>
      refine agree_bind (Agree.refl n _) forward_joinOperator? fun found => ?_
      cases found with
      | none => exact Agree.refl n _
      | some token =>
          exact agree_bind (Agree.refl n _) (forward_take _ _) fun _ => agree_bind h hside fun _ =>
            agree_bind (Agree.refl n _) (forward_take _ _) fun _ =>
              agree_bind (Agree.refl n _) (forward_expression _) fun _ => ih _

theorem agree_joined (h : Agree n p q) (hp : Forward p) : Agree (n + 1) (joined p) (joined q) :=
  agree_bind (agree_aliasable h hp) (forward_aliasable hp) fun first =>
    agree_bounded fun rounds =>
      agree_joins (agree_aliasable h hp) (forward_aliasable hp) rounds first

theorem settled_within : Settled within := by
  apply settled_of_succ
  intro n
  induction n with
  | zero =>
      intro ts hts
      rw [List.length_eq_zero_iff.mp (Nat.le_zero.mp hts)]
      rfl
  | succ n ih => exact agree_joined ih (forward_within _)

/-- A nested source is again a source with its joins. -/
theorem nested_eq : nested = aliasable nested >>= joinAll (aliasable nested) := by
  funext ts
  cases ts with
  | nil => rfl
  | cons t rest =>
      exact agree_joined (settled_within.agree rest.length) (forward_within _) (t :: rest)
        (Nat.le_refl (rest.length + 1))

theorem production_eq : production = plain nested := by
  funext ts
  exact agree_plain (settled_within.agree ts.length) (forward_within _) ts (Nat.le_succ _)

end Source

end RecordFlow
