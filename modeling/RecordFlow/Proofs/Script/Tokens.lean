/-
# The tokens of a script

The tokens that a node keeps, its own and those of the nodes below it. Reading makes no tokens up:
each token that a statement keeps, and each token that an error blames, is one of the tokens that
were read, or the token that marks the end of the text. So whatever holds of all the tokens of a
text holds of all the tokens of its script.
-/

import RecordFlow.Proofs.Script.Rounds

namespace RecordFlow

/-- The tokens of the value of a field. -/
def FieldValue.tokens : FieldValue → List Token
  | input none name => [name.token]
  | input (some space) name => [space.token, name.token]
  | text literal => [literal.token]
  | number literal => [literal.token]
  | truth literal => [literal.token]
  | expression e => [e.token]

/-- The tokens of a field, with those of its alias. -/
def Field.tokens (field : Field) : List Token :=
  match field.alias? with
  | some announced => field.value.tokens ++ [announced.token, announced.name.token]
  | none => field.value.tokens

/-- The tokens of a choice of fields. -/
def Fields.tokens : Fields → List Token
  | star token => [token]
  | list first rest => first.tokens ++ rest.flatMap Field.tokens

/-- The tokens of a condition on records. -/
def Filter.tokens (filter : Filter) : List Token := [filter.token, filter.condition.token]

/-- The tokens of a source. -/
def Source.tokens : Source → List Token
  | file token choice path => token :: (choice.tokens ++ [path.token])
  | named name => [name.token]
  | select token choice source filter? =>
      token :: (choice.tokens ++ source.tokens ++ filter?.toList.flatMap Filter.tokens)
  | aliased token source name => token :: (source.tokens ++ [name.token])
  | join token left right condition =>
      token :: (left.tokens ++ right.tokens ++ [condition.token])

/-- The tokens of a variable with its type. -/
def TypedName.tokens (typed : TypedName) : List Token :=
  [typed.token, typed.name.token, typed.typeName.token]

/-- The tokens of a value of a variable. -/
def Value.tokens : Value → List Token
  | text literal => [literal.token]
  | number literal => [literal.token]
  | truth literal => [literal.token]
  | reference token name => [token, name.token]
  | expression e => [e.token]

/-- The tokens of a statement. -/
def Statement.tokens : Statement → List Token
  | assign name source => name.token :: source.tokens
  | output token source path => token :: (source.tokens ++ [path.token])
  | param token typed default? => token :: (typed.tokens ++ default?.toList.flatMap Value.tokens)
  | importName token name path => [token, name.token, path.token]
  | exportName token name => [token, name.token]
  | setVariable token name value => token :: name.token :: value.tokens
  | defineVariable typed value => typed.tokens ++ value.tokens

namespace Production

variable {α β : Type}

/-- A production that, given tokens with a property, builds something whose tokens have it, and
leaves tokens that have it. -/
def Keeps (P : Token → Prop) (tokens : α → List Token) (p : Production α) : Prop :=
  ∀ ts a rest, (∀ t ∈ ts, P t) → p ts = .ok a rest → (∀ t ∈ tokens a, P t) ∧ ∀ t ∈ rest, P t

variable {P : Token → Prop} {tokens : α → List Token} {others : β → List Token}

theorem keeps_pure {a : α} (h : ∀ t ∈ tokens a, P t) : Keeps P tokens (pure a) := by
  intro ts b rest hts hrun
  obtain ⟨rfl, rfl⟩ := pure_eq_ok hrun
  exact ⟨h, hts⟩

theorem keeps_fail (what : Expected) : Keeps P tokens (fail what) := by
  intro ts a rest hts hrun
  exact nomatch hrun

theorem keeps_bind {p : Production α} {f : α → Production β} (hp : Keeps P tokens p)
    (hf : ∀ a, (∀ t ∈ tokens a, P t) → Keeps P others (f a)) : Keeps P others (p >>= f) := by
  intro ts b rest hts hrun
  obtain ⟨a, middle, hfirst, hsecond⟩ := bind_eq_ok hrun
  obtain ⟨ha, hmiddle⟩ := hp ts a middle hts hfirst
  exact hf a ha middle b rest hmiddle hsecond

theorem keeps_choose {what : Expected} {after? : Token → Option (Production α)}
    (h : ∀ t p, (∀ u ∈ [t], P u) → after? t = some p → Keeps P tokens p) :
    Keeps P tokens (choose what after?) := by
  intro ts a rest hts hrun
  obtain ⟨t, p, behind, rfl, hafter, hp⟩ := choose_eq_ok hrun
  obtain ⟨ht, hbehind⟩ := List.forall_mem_cons.mp hts
  exact h t p (List.forall_mem_singleton.mpr ht) hafter behind a rest hbehind hp

theorem keeps_take (kind : TokenKind) (what : Expected) :
    Keeps P (fun t => [t]) (take kind what) := by
  intro ts t rest hts hrun
  obtain ⟨-, rfl⟩ := take_eq_ok hrun
  obtain ⟨ht, hrest⟩ := List.forall_mem_cons.mp hts
  exact ⟨List.forall_mem_singleton.mpr ht, hrest⟩

theorem keeps_acceptIf (test : Token → Bool) : Keeps P Option.toList (acceptIf test) := by
  intro ts found rest hts hrun
  obtain ⟨t, rfl, -, rfl⟩ | ⟨rfl, rfl⟩ := acceptIf_eq_ok hrun
  · obtain ⟨ht, hrest⟩ := List.forall_mem_cons.mp hts
    exact ⟨List.forall_mem_singleton.mpr ht, hrest⟩
  · exact ⟨List.forall_mem_nil P, hts⟩

theorem keeps_accept? (kind : TokenKind) : Keeps P Option.toList (accept? kind) := by
  rw [accept?_eq_acceptIf]
  exact keeps_acceptIf _

theorem keeps_bounded {p : Nat → Production α} (hp : ∀ n, Keeps P tokens (p n)) :
    Keeps P tokens (bounded p) := fun ts => hp ts.length ts

theorem keeps_name (what : Expected) :
    Keeps P (fun name => [name.token]) (Name.production what) :=
  keeps_bind (keeps_take _ _) fun _ ht => keeps_pure ht

theorem keeps_text (what : Expected) :
    Keeps P (fun literal => [literal.token]) (TextLiteral.production what) :=
  keeps_bind (keeps_take _ _) fun _ ht => keeps_pure ht

theorem keeps_expression (what : Expected) :
    Keeps P (fun e => [e.token]) (Expression.production what) :=
  keeps_bind (keeps_take _ _) fun _ ht => keeps_pure ht

/-- Parts that have a property have it together. -/
theorem all_append {xs ys : List Token} (hxs : ∀ t ∈ xs, P t) (hys : ∀ t ∈ ys, P t) :
    ∀ t ∈ xs ++ ys, P t := List.forall_mem_append.mpr ⟨hxs, hys⟩

theorem keeps_fieldValue : Keeps P FieldValue.tokens FieldValue.production := by
  apply keeps_choose
  intro t p ht hafter
  unfold FieldValue.after? at hafter
  split at hafter <;> cases hafter
  case h_6 =>
    apply keeps_bind (keeps_accept? _)
    intro found hfound
    cases found with
    | none => exact keeps_pure ht
    | some dot => exact keeps_bind (keeps_name _) fun name hname => keeps_pure (all_append ht hname)
  all_goals exact keeps_pure ht

theorem keeps_field : Keeps P Field.tokens Field.production := by
  apply keeps_bind keeps_fieldValue
  intro value hvalue
  apply keeps_bind (keeps_accept? _)
  intro found hfound
  cases found with
  | none => exact keeps_pure hvalue
  | some announcement =>
      exact keeps_bind (keeps_name _) fun name hname =>
        keeps_pure (all_append hvalue (all_append hfound hname))

theorem keeps_moreFields (rounds : Nat) :
    Keeps P (List.flatMap Field.tokens) (Fields.more rounds) := by
  induction rounds with
  | zero => exact keeps_pure (List.forall_mem_nil P)
  | succ rounds ih =>
      apply keeps_bind (keeps_accept? _)
      intro found hfound
      cases found with
      | none => exact keeps_pure (List.forall_mem_nil P)
      | some comma =>
          exact keeps_bind keeps_field fun field hfield => keeps_bind ih fun rest hrest =>
            keeps_pure (all_append hfield hrest)

theorem keeps_fields : Keeps P Fields.tokens Fields.production := by
  apply keeps_bind (keeps_accept? _)
  intro found hfound
  cases found with
  | some star => exact keeps_pure hfound
  | none =>
      exact keeps_bind keeps_field fun first hfirst =>
        keeps_bind (keeps_bounded keeps_moreFields) fun rest hrest =>
          keeps_pure (all_append hfirst hrest)

theorem keeps_filter :
    Keeps P (fun filter? => filter?.toList.flatMap Filter.tokens) Filter.production? := by
  apply keeps_bind (keeps_accept? _)
  intro found hfound
  cases found with
  | none => exact keeps_pure (List.forall_mem_nil P)
  | some token =>
      exact keeps_bind (keeps_expression _) fun condition hcondition =>
        keeps_pure (all_append (all_append hfound hcondition) (List.forall_mem_nil P))

theorem keeps_afterExtract {token : Token} (htoken : ∀ t ∈ [token], P t) :
    Keeps P Source.tokens (Source.afterExtract token) :=
  keeps_bind keeps_fields fun _ hchoice => keeps_bind (keeps_take _ _) fun _ _ =>
    keeps_bind (keeps_text _) fun _ hpath =>
      keeps_pure (all_append htoken (all_append hchoice hpath))

section Nested

variable {nested : Production Source} (hnested : Keeps P Source.tokens nested)

include hnested

theorem keeps_afterSelect {token : Token} (htoken : ∀ t ∈ [token], P t) :
    Keeps P Source.tokens (Source.afterSelect nested token) :=
  keeps_bind keeps_fields fun _ hchoice => keeps_bind (keeps_take _ _) fun _ _ =>
    keeps_bind hnested fun _ hsource => keeps_bind keeps_filter fun _ hfilter =>
      keeps_pure (all_append htoken (all_append (all_append hchoice hsource) hfilter))

theorem keeps_plain : Keeps P Source.tokens (Source.plain nested) := by
  apply keeps_choose
  intro t p ht hafter
  unfold Source.after? at hafter
  split at hafter <;> cases hafter
  · exact keeps_afterExtract ht
  · exact keeps_afterSelect hnested ht
  · exact keeps_pure ht
  · exact keeps_bind hnested fun _ hsource => keeps_bind (keeps_take _ _) fun _ _ =>
      keeps_pure hsource

theorem keeps_aliasable : Keeps P Source.tokens (Source.aliasable nested) := by
  apply keeps_bind (keeps_plain hnested)
  intro source hsource
  apply keeps_bind (keeps_accept? _)
  intro found hfound
  cases found with
  | none => exact keeps_pure hsource
  | some token =>
      exact keeps_bind (keeps_name _) fun name hname =>
        keeps_pure (all_append hfound (all_append hsource hname))

omit hnested in
theorem keeps_joins {side : Production Source} (hside : Keeps P Source.tokens side) (rounds : Nat)
    {first : Source} (hfirst : ∀ t ∈ first.tokens, P t) :
    Keeps P Source.tokens (Source.joins side rounds first) := by
  induction rounds generalizing first with
  | zero => exact keeps_pure hfirst
  | succ rounds ih =>
      have hoperator : Keeps P Option.toList Source.joinOperator? := by
        rw [joinOperator?_eq_acceptIf]
        exact keeps_acceptIf _
      apply keeps_bind hoperator
      intro found hfound
      cases found with
      | none => exact keeps_pure hfirst
      | some token =>
          exact keeps_bind (keeps_take _ _) fun _ _ => keeps_bind hside fun right hright =>
            keeps_bind (keeps_take _ _) fun _ _ =>
              keeps_bind (keeps_expression _) fun condition hcondition =>
                ih (all_append hfound (all_append (all_append hfirst hright) hcondition))

theorem keeps_joined : Keeps P Source.tokens (Source.joined nested) :=
  keeps_bind (keeps_aliasable hnested) fun _ hfirst =>
    keeps_bounded fun rounds => keeps_joins (keeps_aliasable hnested) rounds hfirst

end Nested

theorem keeps_within (depth : Nat) : Keeps P Source.tokens (Source.within depth) := by
  induction depth with
  | zero => exact keeps_fail _
  | succ depth ih => exact keeps_joined ih

theorem keeps_source : Keeps P Source.tokens Source.production :=
  keeps_bounded fun depth => keeps_plain (keeps_within depth)

theorem keeps_value : Keeps P Value.tokens Value.production := by
  apply keeps_choose
  intro t p ht hafter
  unfold Value.after? at hafter
  split at hafter <;> cases hafter
  case h_6 => exact keeps_bind (keeps_name _) fun name hname => keeps_pure (all_append ht hname)
  all_goals exact keeps_pure ht

theorem keeps_default? :
    Keeps P (fun value? => value?.toList.flatMap Value.tokens) Statement.default? := by
  apply keeps_bind (keeps_accept? _)
  intro found hfound
  cases found with
  | none => exact keeps_pure (List.forall_mem_nil P)
  | some _ =>
      exact keeps_bind keeps_value fun value hvalue =>
        keeps_pure (all_append hvalue (List.forall_mem_nil P))

theorem keeps_afterAt {token : Token} (htoken : ∀ t ∈ [token], P t) :
    Keeps P Statement.tokens (Statement.afterAt token) := by
  apply keeps_bind (keeps_name _)
  intro name hname
  apply keeps_bind (keeps_accept? _)
  intro found hfound
  cases found with
  | none =>
      exact keeps_bind (keeps_take _ _) fun _ _ => keeps_bind keeps_value fun value hvalue =>
        keeps_pure (all_append htoken (all_append hname hvalue))
  | some _ =>
      exact keeps_bind (keeps_name _) fun typeName htype =>
        keeps_bind (keeps_take _ _) fun _ _ => keeps_bind keeps_value fun value hvalue =>
          keeps_pure (all_append (all_append htoken (all_append hname htype)) hvalue)

theorem keeps_afterParam {token : Token} (htoken : ∀ t ∈ [token], P t) :
    Keeps P Statement.tokens (Statement.afterParam token) :=
  keeps_bind (keeps_take _ _) fun _ hsign => keeps_bind (keeps_name _) fun _ hname =>
    keeps_bind (keeps_take _ _) fun _ _ => keeps_bind (keeps_name _) fun _ htype =>
      keeps_bind keeps_default? fun _ hvalue => keeps_pure (all_append htoken
        (all_append (all_append hsign (all_append hname htype)) hvalue))

/-- What follows the first token of a statement keeps that token. -/
theorem keeps_body {t : Token} {p : Production Statement} (ht : ∀ u ∈ [t], P u)
    (h : Statement.body? t = some p) : Keeps P Statement.tokens p := by
  unfold Statement.body? at h
  split at h <;> cases h
  · exact keeps_bind (keeps_take _ _) fun _ _ => keeps_bind keeps_source fun source hsource =>
      keeps_pure (all_append ht hsource)
  · exact keeps_bind keeps_source fun source hsource => keeps_bind (keeps_take _ _) fun _ _ =>
      keeps_bind (keeps_text _) fun path hpath =>
        keeps_pure (all_append ht (all_append hsource hpath))
  · exact keeps_afterAt ht
  · exact keeps_afterParam ht
  · exact keeps_bind (keeps_name _) fun name hname => keeps_bind (keeps_take _ _) fun _ _ =>
      keeps_bind (keeps_text _) fun path hpath =>
        keeps_pure (all_append ht (all_append hname hpath))
  · exact keeps_bind (keeps_name _) fun name hname => keeps_pure (all_append ht hname)

theorem keeps_closed {body : Production Statement} (h : Keeps P Statement.tokens body) :
    Keeps P Statement.tokens (Statement.closed body) :=
  keeps_bind h fun _ hstatement => keeps_bind (keeps_take _ _) fun _ _ => keeps_pure hstatement

end Production

namespace Script

variable {P : Token → Prop} {final : Token}

/-- A round that blames a token blames one of those it was given, or the final one. -/
theorem found_of_round {t : Token} {rest behind : List Token} {e : ParseError} (hfinal : P final)
    (ht : P t) (hrest : ∀ u ∈ rest, P u) (h : round final t rest = (.error e, behind)) :
    P e.found := by
  rcases round_eq_error h with ⟨-, hfound, -⟩ | ⟨body, what, left, -, -, hleft, hfound, -⟩
  · rw [hfound]
    exact ht
  · rw [hfound]
    cases left with
    | nil => exact hfinal
    | cons u left => exact hrest u (hleft.subset List.mem_cons_self)

/-- What holds of the tokens given and of the final one holds of the tokens of every statement that
is read and of every token that is blamed. -/
theorem tokens_of_readStatements (hfinal : P final) {ts : List Token} (hts : ∀ t ∈ ts, P t) :
    (∀ statement ∈ (readStatements final ts).1, ∀ t ∈ statement.tokens, P t) ∧
      ∀ e ∈ (readStatements final ts).2, P e.found := by
  induction ts using rounds_induction final with
  | nil => simp [readStatements]
  | ok t rest statement behind hround ih =>
      obtain ⟨ht, hrest⟩ := List.forall_mem_cons.mp hts
      obtain ⟨body, hbody, hclosed⟩ := round_eq_ok_iff.mp hround
      obtain ⟨hstatement, hbehind⟩ := Production.keeps_closed
        (Production.keeps_body (List.forall_mem_singleton.mpr ht) hbody)
        rest statement behind hrest hclosed
      rw [readStatements_of_ok hround]
      exact ⟨List.forall_mem_cons.mpr ⟨hstatement, (ih hbehind).1⟩, (ih hbehind).2⟩
  | error t rest e behind hround ih =>
      obtain ⟨ht, hrest⟩ := List.forall_mem_cons.mp hts
      have hbehind : ∀ u ∈ behind, P u := fun u hu =>
        hrest u ((suffix_of_round hround).subset hu)
      rw [readStatements_of_error hround]
      exact ⟨(ih hbehind).1,
        List.forall_mem_cons.mpr ⟨found_of_round hfinal ht hrest hround, (ih hbehind).2⟩⟩

end Script

end RecordFlow
