/-
# What is read is in the grammar

A production that succeeds has read a word of the rule it stands for and has built a well-formed
tree from it. One that fails has read the beginning of such a word. All this is said of a production
together, because it is shown by one walk over its parts: a sequence of productions reads a sequence
of forms, a choice reads an alternative, and what may be absent reads an option. The bounds on
repetition and nesting play no part, since they can only make a production fail or stop early.
-/

import RecordFlow.Proofs.Grammar.Beginnings
import RecordFlow.Proofs.Grammar.Words
import RecordFlow.Proofs.Script.Rounds
import RecordFlow.Proofs.Script.WellFormed

namespace RecordFlow

open Grammar

namespace Production

variable {α β : Type} {form : Form} {forms others : List Form} {good : α → Prop} {fine : β → Prop}
  {seen : List Token}

/-- Whenever the production succeeds behind the tokens `seen`, these and what it read are a word of
the form, and what it built is good. -/
def Reads (seen : List Token) (form : Form) (good : α → Prop) (p : Production α) : Prop :=
  ∀ ts a rest, p ts = .ok a rest → good a ∧ ∃ us, ts = us ++ rest ∧ Matches form (seen ++ us)

/-- Whenever the production fails behind the tokens `seen`, these and what it read begin a word of
the form. -/
def Halts (seen : List Token) (form : Form) (p : Production α) : Prop :=
  ∀ ts what rest, p ts = .error what rest →
    ∃ us, ts = us ++ rest ∧ Begins form ((seen ++ us).map Token.kind)

/-- Behind the tokens `seen` the production reads by the form, as far as it comes. -/
structure FollowsBehind (seen : List Token) (form : Form) (good : α → Prop) (p : Production α) :
    Prop where
  reads : Reads seen form good p
  halts : Halts seen form p

/-- The production reads by the form, as far as it comes. -/
abbrev Follows (form : Form) (good : α → Prop) (p : Production α) : Prop :=
  FollowsBehind [] form good p

/-- The production goes on behind the token `t`, which belongs to the word. -/
abbrev FollowsAfter (t : Token) (form : Form) (good : α → Prop) (p : Production α) : Prop :=
  FollowsBehind [t] form good p

theorem Follows.word {p : Production α} (h : Follows form good p) {ts rest : List Token} {a : α}
    (hrun : p ts = .ok a rest) : good a ∧ ∃ us, ts = us ++ rest ∧ Matches form us :=
  h.reads ts a rest hrun

theorem Follows.beginning {p : Production α} (h : Follows form good p) {ts rest : List Token}
    {what : Expected} (hrun : p ts = .error what rest) :
    ∃ us, ts = us ++ rest ∧ Begins form (us.map Token.kind) :=
  h.halts ts what rest hrun

/-- A production that reads nothing reads the empty word. -/
theorem follows_nothing {a : α} (h : good a) (hform : Derives form []) :
    Follows form good (pure a) where
  reads := by
    intro ts b rest hrun
    obtain ⟨rfl, rfl⟩ := pure_eq_ok hrun
    exact ⟨h, [], rfl, hform⟩
  halts := by
    intro ts what rest hrun
    cases hrun

theorem follows_pure {a : α} (h : good a) : Follows (.all []) good (pure a) :=
  follows_nothing h .nil

theorem follows_fail (what : Expected) : Follows form good (fail what) where
  reads := by
    intro ts a rest hrun
    cases hrun
  halts := by
    intro ts other rest hrun
    cases hrun
    exact ⟨[], rfl, .stop⟩

theorem follows_bind {p : Production α} {f : α → Production β}
    (hp : FollowsBehind seen form good p) (hf : ∀ a, good a → Follows (.all forms) fine (f a)) :
    FollowsBehind seen (.all (form :: forms)) fine (p >>= f) where
  reads := by
    intro ts b rest hrun
    obtain ⟨a, middle, hfirst, hsecond⟩ := bind_eq_ok hrun
    obtain ⟨ha, us, rfl, hus⟩ := hp.reads _ _ _ hfirst
    obtain ⟨hb, vs, rfl, hvs⟩ := (hf a ha).word hsecond
    refine ⟨hb, us ++ vs, (List.append_assoc us vs rest).symm, ?_⟩
    rw [← List.append_assoc]
    exact hus.cons hvs
  halts := by
    intro ts what rest hrun
    rcases bind_eq_error hrun with hfirst | ⟨a, middle, hfirst, hsecond⟩
    · obtain ⟨us, rfl, hus⟩ := hp.halts _ _ _ hfirst
      exact ⟨us, rfl, .head hus⟩
    · obtain ⟨ha, us, rfl, hus⟩ := hp.reads _ _ _ hfirst
      obtain ⟨vs, rfl, hvs⟩ := (hf a ha).beginning hsecond
      refine ⟨us ++ vs, (List.append_assoc us vs rest).symm, ?_⟩
      rw [← List.append_assoc, List.map_append]
      exact .tail hus hvs

theorem follows_take (kind : TokenKind) (what : Expected) :
    Follows (.kind kind) (·.kind = kind) (take kind what) where
  reads := by
    intro ts t rest hrun
    obtain ⟨hkind, rfl⟩ := take_eq_ok hrun
    exact ⟨hkind, [t], rfl, matches_kind.mpr hkind⟩
  halts := by
    intro ts other rest hrun
    exact ⟨[], take_eq_error hrun, .stop⟩

/-- A production that reads one token, a word of the form, or nothing. -/
def Finds (form : Form) (p : Production (Option Token)) : Prop :=
  ∀ ts, (∃ t rest, ts = t :: rest ∧ Matches form [t] ∧ p ts = .ok (some t) rest) ∨
    p ts = .ok none ts

theorem finds_acceptIf {test : Token → Bool} (h : ∀ t, test t → Matches form [t]) :
    Finds form (acceptIf test) := by
  intro ts
  cases ts with
  | nil => exact .inr rfl
  | cons t rest =>
      by_cases htest : test t
      · exact .inl ⟨t, rest, rfl, h t htest, acceptIf_cons htest rest⟩
      · exact .inr (if_neg htest)

theorem finds_accept? (kind : TokenKind) : Finds (.kind kind) (accept? kind) := by
  rw [accept?_eq_acceptIf]
  exact finds_acceptIf fun t htest => matches_kind.mpr (eq_of_beq htest)

theorem finds_joinOperator? : Finds .joinOperator Source.joinOperator? := by
  rw [joinOperator?_eq_acceptIf]
  exact finds_acceptIf fun t htest => matches_joinOperator.mpr htest

/-- What an announcing token makes optional. Behind it `forms` follow, and then `others` in any
case. -/
theorem follows_optional {p : Production (Option Token)} {f : Option Token → Production β}
    (hp : Finds form p)
    (hsome : ∀ t : Token, Matches form [t] → Follows (.all (forms ++ others)) fine (f (some t)))
    (hnone : Follows (.all others) fine (f none)) :
    Follows (.all (.opt (.all (form :: forms)) :: others)) fine (p >>= f) where
  reads := by
    intro ts b rest hrun
    rcases hp ts with ⟨t, behind, rfl, ht, hfound⟩ | hfound <;> rw [bind_of_ok hfound] at hrun
    · obtain ⟨hb, us, rfl, hus⟩ := (hsome t ht).word hrun
      obtain ⟨u, v, huv, hu, hv⟩ := derives_all_append.mp hus
      refine ⟨hb, t :: us, rfl, ?_⟩
      have hword : Derives (.opt (.all (form :: forms))) ([t.kind] ++ u) := .present (.cons ht hu)
      simpa [Matches, huv] using Derives.cons hword hv
    · obtain ⟨hb, us, rfl, hus⟩ := hnone.word hrun
      exact ⟨hb, us, rfl, Derives.cons .absent hus⟩
  halts := by
    intro ts what rest hrun
    rcases hp ts with ⟨t, behind, rfl, ht, hfound⟩ | hfound <;> rw [bind_of_ok hfound] at hrun
    · obtain ⟨us, rfl, hus⟩ := (hsome t ht).beginning hrun
      refine ⟨t :: us, rfl, ?_⟩
      rcases begins_all_append hus with hinside | ⟨u, v, huv, hu, hv⟩
      · exact .head (.opt (.tail ht hinside))
      · have hword : Derives (.opt (.all (form :: forms))) ([t.kind] ++ u) := .present (.cons ht hu)
        simpa [huv] using Begins.tail hword hv
    · obtain ⟨us, rfl, hus⟩ := hnone.beginning hrun
      exact ⟨us, rfl, .tail .absent hus⟩

/-- What an announcing token makes another round of a repetition. -/
theorem follows_repeated {p : Production (Option Token)} {f : Option Token → Production β}
    (hp : Finds form p)
    (hsome : ∀ t : Token, Matches form [t] →
      Follows (.all (forms ++ [.many (.all (form :: forms))])) fine (f (some t)))
    (hnone : Follows (.all []) fine (f none)) :
    Follows (.many (.all (form :: forms))) fine (p >>= f) where
  reads := by
    intro ts b rest hrun
    rcases hp ts with ⟨t, behind, rfl, ht, hfound⟩ | hfound <;> rw [bind_of_ok hfound] at hrun
    · obtain ⟨hb, us, rfl, hus⟩ := (hsome t ht).word hrun
      obtain ⟨u, v, huv, hu, hv⟩ := derives_all_append.mp hus
      have hround : Derives (.all (form :: forms)) ([t.kind] ++ u) := .cons ht hu
      refine ⟨hb, t :: us, rfl, ?_⟩
      simpa [Matches, huv] using hround.more (derives_all_singleton.mp hv)
    · obtain ⟨hb, us, rfl, hus⟩ := hnone.word hrun
      have hempty : us.map Token.kind = [] := derives_all_nil.mp hus
      exact ⟨hb, us, rfl, show Derives _ (us.map Token.kind) from hempty ▸ .done⟩
  halts := by
    intro ts what rest hrun
    rcases hp ts with ⟨t, behind, rfl, ht, hfound⟩ | hfound <;> rw [bind_of_ok hfound] at hrun
    · obtain ⟨us, rfl, hus⟩ := (hsome t ht).beginning hrun
      refine ⟨t :: us, rfl, ?_⟩
      rcases begins_all_append hus with hinside | ⟨u, v, huv, hu, hv⟩
      · exact .first (.tail ht hinside)
      · have hround : Derives (.all (form :: forms)) ([t.kind] ++ u) := .cons ht hu
        simpa [huv] using Begins.more hround (begins_all_singleton.mp hv)
    · obtain ⟨us, rfl, hus⟩ := hnone.beginning hrun
      have hempty : us.map Token.kind = [] := begins_all_nil.mp hus
      exact ⟨us, rfl, show Begins _ (us.map Token.kind) from hempty ▸ .stop⟩

/-- What an announcing token decides: it is a word itself, and without it the other form follows. -/
theorem follows_alternative {other : Form} {p : Production (Option Token)}
    {f : Option Token → Production β} (hp : Finds form p)
    (hsome : ∀ t : Token, Matches form [t] → Follows (.all []) fine (f (some t)))
    (hnone : Follows other fine (f none)) : Follows (.any [form, other]) fine (p >>= f) where
  reads := by
    intro ts b rest hrun
    rcases hp ts with ⟨t, behind, rfl, ht, hfound⟩ | hfound <;> rw [bind_of_ok hfound] at hrun
    · obtain ⟨hb, us, rfl, hus⟩ := (hsome t ht).word hrun
      rw [List.map_eq_nil_iff.mp (derives_all_nil.mp hus)]
      exact ⟨hb, [t], rfl, .any (.head _) ht⟩
    · obtain ⟨hb, us, rfl, hus⟩ := hnone.word hrun
      exact ⟨hb, us, rfl, .any (.tail _ (.head _)) hus⟩
  halts := by
    intro ts what rest hrun
    rcases hp ts with ⟨t, behind, rfl, ht, hfound⟩ | hfound <;> rw [bind_of_ok hfound] at hrun
    · obtain ⟨us, rfl, hus⟩ := (hsome t ht).beginning hrun
      rw [List.map_eq_nil_iff.mp (begins_all_nil.mp hus)]
      exact ⟨[t], rfl, .any (.head _) ht.begins⟩
    · obtain ⟨us, rfl, hus⟩ := hnone.beginning hrun
      exact ⟨us, rfl, .any (.tail _ (.head _)) hus⟩

/-- What reads by a form reads by every form that has its words and their beginnings. -/
theorem FollowsBehind.widen {other : Form} {p : Production α} (h : FollowsBehind seen form good p)
    (hwords : ∀ w, Derives form w → Derives other w)
    (hbeginnings : ∀ w, Begins form w → Begins other w) : FollowsBehind seen other good p where
  reads := by
    intro ts a rest hrun
    obtain ⟨ha, us, rfl, hus⟩ := h.reads _ _ _ hrun
    exact ⟨ha, us, rfl, hwords _ hus⟩
  halts := by
    intro ts what rest hrun
    obtain ⟨us, rfl, hus⟩ := h.halts _ _ _ hrun
    exact ⟨us, rfl, hbeginnings _ hus⟩

theorem follows_all_singleton {p : Production α} :
    FollowsBehind seen (.all [form]) good p ↔ FollowsBehind seen form good p :=
  ⟨fun h => h.widen (fun _ => derives_all_singleton.mp) fun _ => begins_all_singleton.mp,
    fun h => h.widen (fun _ => derives_all_singleton.mpr) fun _ => begins_all_singleton.mpr⟩

theorem follows_symbol {s : Symbol} {p : Production α} (h : FollowsBehind seen (rule s) good p) :
    FollowsBehind seen (.symbol s) good p :=
  h.widen (fun _ => .symbol) fun _ => .symbol

theorem follows_any {p : Production α} (h : FollowsBehind seen form good p) (hmem : form ∈ forms) :
    FollowsBehind seen (.any forms) good p :=
  h.widen (fun _ => .any hmem) fun _ => .any hmem

theorem follows_choose {what : Expected} {after? : Token → Option (Production α)}
    (h : ∀ t p, after? t = some p → FollowsAfter t form good p) :
    Follows form good (choose what after?) where
  reads := by
    intro ts a rest hrun
    obtain ⟨t, p, behind, rfl, hafter, hp⟩ := choose_eq_ok hrun
    obtain ⟨ha, us, rfl, hus⟩ := (h t p hafter).reads _ _ _ hp
    exact ⟨ha, t :: us, rfl, hus⟩
  halts := by
    intro ts other rest hrun
    rcases choose_eq_error hrun with rfl | ⟨t, p, behind, rfl, hafter, hp⟩
    · exact ⟨[], rfl, .stop⟩
    · obtain ⟨us, rfl, hus⟩ := (h t p hafter).halts _ _ _ hp
      exact ⟨t :: us, rfl, hus⟩

theorem follows_bounded {p : Nat → Production α} (h : ∀ n, Follows form good (p n)) :
    Follows form good (bounded p) where
  reads := fun ts => (h ts.length).reads ts
  halts := fun ts => (h ts.length).halts ts

theorem followsAfter_all {t : Token} {kind : TokenKind} {p : Production α} (hkind : t.kind = kind)
    (h : Follows (.all forms) good p) : FollowsAfter t (.all (.kind kind :: forms)) good p where
  reads := by
    intro ts a rest hrun
    obtain ⟨ha, us, rfl, hus⟩ := h.reads _ _ _ hrun
    exact ⟨ha, us, rfl, hkind ▸ Derives.cons .kind hus⟩
  halts := by
    intro ts what rest hrun
    obtain ⟨us, rfl, hus⟩ := h.halts _ _ _ hrun
    exact ⟨us, rfl, hkind ▸ Begins.tail .kind hus⟩

theorem followsAfter_kind {t : Token} {kind : TokenKind} {a : α} (hkind : t.kind = kind)
    (h : good a) : FollowsAfter t (.kind kind) good (pure a) where
  reads := by
    intro ts b rest hrun
    obtain ⟨rfl, rfl⟩ := pure_eq_ok hrun
    exact ⟨h, [], rfl, show Derives _ [t.kind] from hkind ▸ .kind⟩
  halts := by
    intro ts what rest hrun
    cases hrun

theorem follows_name (what : Expected) :
    Follows .name Name.WellFormed (Name.production what) :=
  follows_all_singleton.mp (follows_bind (follows_take _ _) fun _ h => follows_pure ⟨h, rfl⟩)

theorem follows_text (what : Expected) :
    Follows (.kind .string) TextLiteral.WellFormed (TextLiteral.production what) :=
  follows_all_singleton.mp (follows_bind (follows_take _ _) fun _ h => follows_pure ⟨h, rfl⟩)

theorem follows_expression (what : Expected) :
    Follows (.kind .expression) Expression.WellFormed (Expression.production what) :=
  follows_all_singleton.mp (follows_bind (follows_take _ _) fun _ h => follows_pure ⟨h, rfl⟩)

theorem follows_fieldAfterName {first : Name} (h : first.WellFormed) :
    Follows (.all [.opt (.all [.mark .dot, .name])]) FieldValue.WellFormed
      (FieldValue.afterName first) := by
  apply follows_optional (finds_accept? _)
  · intro t _
    exact follows_bind (follows_name _) fun _ hname => follows_pure ⟨h, hname⟩
  · exact follows_pure h

theorem follows_fieldValue :
    Follows .fieldValue FieldValue.WellFormed FieldValue.production := by
  apply follows_choose
  intro t p hafter
  unfold FieldValue.after? at hafter
  split at hafter <;> cases hafter
  · next hkind => exact follows_any (followsAfter_kind hkind ⟨hkind, rfl⟩) (by simp)
  · next hkind => exact follows_any (followsAfter_kind hkind ⟨hkind, rfl⟩) (by simp)
  · next hkind => exact follows_any (followsAfter_kind hkind ⟨.inl hkind, rfl⟩) (by simp)
  · next hkind => exact follows_any (followsAfter_kind hkind ⟨.inr hkind, rfl⟩) (by simp)
  · next hkind => exact follows_any (followsAfter_kind hkind ⟨hkind, rfl⟩) (by simp)
  · next hkind =>
      exact follows_any (followsAfter_all hkind (follows_fieldAfterName ⟨hkind, rfl⟩))
        (by simp [Form.name])

theorem follows_field : Follows (.symbol .field) Field.WellFormed Field.production := by
  apply follows_symbol
  apply follows_bind follows_fieldValue
  intro value hvalue
  apply follows_optional (finds_accept? _)
  · intro t ht
    refine follows_bind (follows_name _) fun name hname => follows_pure ⟨hvalue, ?_⟩
    rintro announced ⟨⟩
    exact ⟨matches_kind.mp ht, hname⟩
  · exact follows_pure ⟨hvalue, fun announced h => nomatch h⟩

theorem follows_moreFields (rounds : Nat) :
    Follows (.many (.all [.mark .comma, .symbol .field])) (∀ field ∈ ·, field.WellFormed)
      (Fields.more rounds) := by
  induction rounds with
  | zero => exact follows_nothing (List.forall_mem_nil _) .done
  | succ rounds ih =>
      apply follows_repeated (finds_accept? _)
      · intro comma _
        exact follows_bind follows_field fun field hfield => follows_bind ih fun rest hrest =>
          follows_pure (List.forall_mem_cons.mpr ⟨hfield, hrest⟩)
      · exact follows_pure (List.forall_mem_nil _)

theorem follows_fields : Follows (.symbol .fields) Fields.WellFormed Fields.production := by
  apply follows_symbol
  apply follows_alternative (finds_accept? _)
  · intro star hstar
    exact follows_pure (matches_kind.mp hstar)
  · exact follows_bind follows_field fun first hfirst =>
      follows_bind (follows_bounded follows_moreFields) fun rest hrest =>
        follows_pure ⟨hfirst, hrest⟩

theorem follows_filter :
    Follows (.opt (.all [.word .WHERE, .kind .expression])) (∀ filter ∈ ·, filter.WellFormed)
      Filter.production? := by
  apply follows_all_singleton.mp
  apply follows_optional (finds_accept? _)
  · intro t ht
    refine follows_bind (follows_expression _) fun condition hcondition => follows_pure ?_
    rintro filter ⟨⟩
    exact ⟨matches_kind.mp ht, hcondition⟩
  · exact follows_pure fun filter h => nomatch h

variable {nested : Production Source}

theorem follows_plain (h : Follows (.symbol .selectSource) Source.WellFormed nested) :
    Follows (.symbol .source) Source.WellFormed (Source.plain nested) := by
  apply follows_symbol
  apply follows_choose
  intro t p hafter
  unfold Source.after? at hafter
  split at hafter <;> cases hafter
  · next hkind =>
      refine follows_any (followsAfter_all hkind ?_) (.head _)
      exact follows_bind follows_fields fun _ hfields => follows_bind (follows_take _ _) fun _ _ =>
        follows_bind (follows_text _) fun _ hpath => follows_pure ⟨hkind, hfields, hpath⟩
  · next hkind =>
      refine follows_any (followsAfter_all hkind ?_) (.tail _ (.head _))
      exact follows_bind follows_fields fun _ hfields => follows_bind (follows_take _ _) fun _ _ =>
        follows_bind h fun _ hsource => follows_bind follows_filter fun _ hfilter =>
          follows_pure ⟨hkind, hfields, hsource, hfilter⟩
  · next hkind =>
      exact follows_any (followsAfter_kind hkind ⟨hkind, rfl⟩) (.tail _ (.tail _ (.head _)))
  · next hkind =>
      refine follows_any (followsAfter_all hkind ?_) (.tail _ (.tail _ (.tail _ (.head _))))
      exact follows_bind h fun _ hsource => follows_bind (follows_take _ _) fun _ _ =>
        follows_pure hsource

theorem follows_aliasable (h : Follows (.symbol .selectSource) Source.WellFormed nested) :
    Follows (.symbol .aliasable) Source.WellFormed (Source.aliasable nested) := by
  apply follows_symbol
  apply follows_bind (follows_plain h)
  intro source hsource
  apply follows_optional (finds_accept? _)
  · intro t ht
    exact follows_bind (follows_name _) fun _ hname =>
      follows_pure ⟨matches_kind.mp ht, hsource, hname⟩
  · exact follows_pure hsource

theorem follows_joins {side : Production Source}
    (h : Follows (.symbol .aliasable) Source.WellFormed side) (rounds : Nat) {left : Source}
    (hleft : left.WellFormed) :
    Follows (.many (.all [.joinOperator, .word .JOIN, .symbol .aliasable, .word .ON,
      .kind .expression])) Source.WellFormed (Source.joins side rounds left) := by
  induction rounds generalizing left with
  | zero => exact follows_nothing hleft .done
  | succ rounds ih =>
      apply follows_repeated finds_joinOperator?
      · intro t ht
        refine follows_bind (follows_take _ _) fun _ _ => follows_bind h fun right hright => ?_
        refine follows_bind (follows_take _ _) fun _ _ => follows_bind (follows_expression _) ?_
        intro condition hcondition
        have hjoin : (Source.join t left right condition).WellFormed :=
          ⟨matches_joinOperator.mp ht, hleft, hright, hcondition⟩
        exact follows_all_singleton.mpr (ih hjoin)
      · exact follows_pure hleft

theorem follows_within (depth : Nat) :
    Follows (.symbol .selectSource) Source.WellFormed (Source.within depth) := by
  induction depth with
  | zero => exact follows_fail _
  | succ depth ih =>
      apply follows_symbol
      refine follows_bind (follows_aliasable ih) fun first hfirst => ?_
      exact follows_all_singleton.mpr
        (follows_bounded fun rounds => follows_joins (follows_aliasable ih) rounds hfirst)

theorem follows_source : Follows (.symbol .source) Source.WellFormed Source.production :=
  follows_bounded fun depth => follows_plain (follows_within depth)

theorem follows_value : Follows (.symbol .value) Value.WellFormed Value.production := by
  apply follows_symbol
  apply follows_choose
  intro t p hafter
  unfold Value.after? at hafter
  split at hafter <;> cases hafter
  · next hkind => exact follows_any (followsAfter_kind hkind ⟨hkind, rfl⟩) (by simp)
  · next hkind => exact follows_any (followsAfter_kind hkind ⟨.inl hkind, rfl⟩) (by simp)
  · next hkind => exact follows_any (followsAfter_kind hkind ⟨.inr hkind, rfl⟩) (by simp)
  · next hkind => exact follows_any (followsAfter_kind hkind ⟨hkind, rfl⟩) (by simp)
  · next hkind => exact follows_any (followsAfter_kind hkind ⟨hkind, rfl⟩) (by simp)
  · next hkind =>
      have hname : Follows (.all [.name]) Value.WellFormed (Value.afterAt t) :=
        follows_bind (follows_name _) fun _ hname => follows_pure ⟨hkind, hname⟩
      exact follows_any (followsAfter_all hkind hname) (by simp [Form.mark])

theorem follows_default? :
    Follows (.opt (.all [.mark .equal, .symbol .value])) (∀ value ∈ ·, value.WellFormed)
      Statement.default? := by
  apply follows_all_singleton.mp
  apply follows_optional (finds_accept? _)
  · intro t _
    refine follows_bind follows_value fun value hvalue => follows_pure ?_
    rintro _ ⟨⟩
    exact hvalue
  · exact follows_pure fun value h => nomatch h

theorem follows_afterAt {token : Token} (h : token.kind = .punctuation .atSign) :
    Follows (.all [.name, .opt (.all [.mark .colon, .name]), .mark .equal, .symbol .value])
      Statement.WellFormed (Statement.afterAt token) := by
  refine follows_bind (follows_name _) fun name hname => ?_
  apply follows_optional (finds_accept? _)
  · intro t _
    exact follows_bind (follows_name _) fun _ htype => follows_bind (follows_take _ _) fun _ _ =>
      follows_bind follows_value fun _ hvalue => follows_pure ⟨⟨h, hname, htype⟩, hvalue⟩
  · exact follows_bind (follows_take _ _) fun _ _ => follows_bind follows_value fun _ hvalue =>
      follows_pure ⟨h, hname, hvalue⟩

/-- Whatever the first token of a statement is, the rest of it is read as its rule says. -/
theorem followsAfter_body {t : Token} {p : Production Statement}
    (h : Statement.body? t = some p) : FollowsAfter t .statementBody Statement.WellFormed p := by
  unfold Statement.body? at h
  split at h <;> cases h
  · next hkind =>
      refine follows_any (followsAfter_all hkind ?_) (.head _)
      exact follows_bind (follows_take _ _) fun _ _ => follows_bind follows_source fun _ hsource =>
        follows_pure ⟨⟨hkind, rfl⟩, hsource⟩
  · next hkind =>
      refine follows_any (followsAfter_all hkind ?_) (.tail _ (.head _))
      exact follows_bind follows_source fun _ hsource => follows_bind (follows_take _ _) fun _ _ =>
        follows_bind (follows_text _) fun _ hpath => follows_pure ⟨hkind, hsource, hpath⟩
  · next hkind =>
      exact follows_any (followsAfter_all hkind (follows_afterAt hkind))
        (.tail _ (.tail _ (.tail _ (.head _))))
  · next hkind =>
      refine follows_any (followsAfter_all hkind ?_) (.tail _ (.tail _ (.head _)))
      exact follows_bind (follows_take _ _) fun _ hsign =>
        follows_bind (follows_name _) fun _ hname => follows_bind (follows_take _ _) fun _ _ =>
          follows_bind (follows_name _) fun _ htype =>
            follows_bind follows_default? fun _ hdefault =>
              follows_pure ⟨hkind, ⟨hsign, hname, htype⟩, hdefault⟩
  · next hkind =>
      refine follows_any (followsAfter_all hkind ?_)
        (.tail _ (.tail _ (.tail _ (.tail _ (.head _)))))
      exact follows_bind (follows_name _) fun _ hname => follows_bind (follows_take _ _) fun _ _ =>
        follows_bind (follows_text _) fun _ hpath => follows_pure ⟨hkind, hname, hpath⟩
  · next hkind =>
      refine follows_any (followsAfter_all hkind ?_)
        (.tail _ (.tail _ (.tail _ (.tail _ (.tail _ (.head _))))))
      exact follows_bind (follows_name _) fun _ hname => follows_pure ⟨hkind, hname⟩

theorem followsAfter_closed {t : Token} {p : Production Statement}
    (h : FollowsAfter t .statementBody Statement.WellFormed p) :
    FollowsAfter t (.symbol .statement) Statement.WellFormed (Statement.closed p) := by
  apply follows_symbol
  exact follows_bind h fun statement hstatement =>
    follows_bind (follows_take _ _) fun _ _ => follows_pure hstatement

end Production

namespace Script

open Production

variable {final : Token}

/-- A round that succeeds has read one statement, whatever else is there. -/
theorem matches_of_round_eq_ok {t : Token} {rest behind : List Token} {statement : Statement}
    (h : round final t rest = (.ok statement, behind)) :
    statement.WellFormed ∧
      ∃ us, rest = us ++ behind ∧ Matches (.symbol .statement) (t :: us) := by
  obtain ⟨body, hbody, hclosed⟩ := round_eq_ok_iff.mp h
  exact (followsAfter_closed (followsAfter_body hbody)).reads _ _ _ hclosed

/-- Every statement that is read is well formed, errors or not. -/
theorem wellFormed_of_mem_readStatements (ts : List Token) :
    ∀ statement ∈ (readStatements final ts).1, statement.WellFormed := by
  induction ts using rounds_induction final with
  | nil =>
      rw [readStatements]
      exact List.forall_mem_nil _
  | ok t rest statement behind hround ih =>
      rw [readStatements_of_ok hround]
      exact List.forall_mem_cons.mpr ⟨(matches_of_round_eq_ok hround).1, ih⟩
  | error t rest e behind hround ih =>
      rw [readStatements_of_error hround]
      exact ih

/-- Tokens that are read without an error make up a script. -/
theorem matches_of_no_errors (ts : List Token) (h : (readStatements final ts).2 = []) :
    Matches (.many (.symbol .statement)) ts := by
  induction ts using rounds_induction final with
  | nil => exact .done
  | ok t rest statement behind hround ih =>
      rw [readStatements_of_ok hround] at h
      obtain ⟨-, us, rfl, hus⟩ := matches_of_round_eq_ok hround
      have hword : Derives (.many (.symbol .statement))
          ((t :: us).map Token.kind ++ behind.map Token.kind) := hus.more (ih h)
      simpa [Matches] using hword
  | error t rest e behind hround ih =>
      rw [readStatements_of_error hround] at h
      cases h

end Script

end RecordFlow
