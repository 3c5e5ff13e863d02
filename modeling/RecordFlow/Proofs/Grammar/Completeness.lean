/-
# What is in the grammar is read

Reading is greedy and never goes back, while the grammar leaves open where the alias, the joins and
the condition behind a nested selection belong. Such a tail may be taken at an inner level although
a derivation has it at an outer one. Nothing is lost by that: what is taken early is missing later
only where it was optional.

To make this precise, a word is not read up to a fixed place. It is read up to some place in a set
of continuations, and the set is closed under taking a tail early. Each level of a derivation adds
its own tails to the set, reads what is inside, and then takes those that are still there. At a
token that begins no tail the set has one member, and the place is fixed again.
-/

import RecordFlow.Proofs.Grammar.Words
import RecordFlow.Proofs.Production.Bound
import RecordFlow.Proofs.Script.Rounds

namespace RecordFlow

open Grammar

namespace Production

variable {α β : Type} {ts : List Token} {C D : List Token → Prop}

/-- The production succeeds, and what it leaves is one of the given continuations. -/
def Lands (p : Production α) (ts : List Token) (C : List Token → Prop) : Prop :=
  ∃ a rest, p ts = .ok a rest ∧ C rest

theorem lands_pure (a : α) (h : C ts) : Lands (pure a) ts C := ⟨a, ts, rfl, h⟩

theorem lands_bind {p : Production α} {f : α → Production β} (hp : Lands p ts C)
    (hf : ∀ a rest, C rest → Lands (f a) rest D) : Lands (p >>= f) ts D := by
  obtain ⟨a, rest, hrun, hrest⟩ := hp
  obtain ⟨b, last, hlast, hD⟩ := hf a rest hrest
  exact ⟨b, last, by rw [bind_of_ok hrun, hlast], hD⟩

theorem Lands.mono {p : Production α} (h : Lands p ts C) (hsub : ∀ rest, C rest → D rest) :
    Lands p ts D := by
  obtain ⟨a, rest, hrun, hrest⟩ := h
  exact ⟨a, rest, hrun, hsub rest hrest⟩

/-- A run that is known is followed by what comes next. -/
theorem lands_run {p : Production α} {f : α → Production β} {rest : List Token} {a : α}
    (hrun : p ts = .ok a rest) (hf : Lands (f a) rest D) : Lands (p >>= f) ts D := by
  obtain ⟨b, last, hlast, hD⟩ := hf
  exact ⟨b, last, by rw [bind_of_ok hrun, hlast], hD⟩

theorem lands_choose {what : Expected} {after? : Token → Option (Production α)} {t : Token}
    {p : Production α} (h : after? t = some p) (hp : Lands p ts C) :
    Lands (choose what after?) (t :: ts) C := by
  obtain ⟨a, rest, hrun, hrest⟩ := hp
  exact ⟨a, rest, by rw [choose_cons h, hrun], hrest⟩

variable {us ks : List Token}

/-- A choice whose token is all there is to read. -/
theorem lands_leaf {what : Expected} {after? : Token → Option (Production α)} {kind : TokenKind}
    (h : Matches (.kind kind) us)
    (hafter : ∀ t : Token, t.kind = kind → ∃ a, after? t = some (pure a)) :
    Lands (choose what after?) (us ++ ks) (· = ks) := by
  obtain ⟨t, rfl, ht⟩ := matches_kind_iff.mp h
  obtain ⟨a, ha⟩ := hafter t ht
  exact lands_choose ha (lands_pure a rfl)

theorem lands_fieldValue (h : Matches .fieldValue us) (hks : Avoids [.punctuation .dot] ks) :
    Lands FieldValue.production (us ++ ks) (· = ks) := by
  simp only [Form.fieldValue, matches_any, List.mem_cons, List.not_mem_nil, or_false,
    exists_eq_or_imp, exists_eq_left] at h
  rcases h with h | h | h | h | h | h
  iterate 5 exact lands_leaf h fun t ht => by simp only [FieldValue.after?, ht]; exact ⟨_, rfl⟩
  obtain ⟨first, vs, rfl, hfirst, hvs⟩ := matches_all_kind_cons.mp h
  refine lands_choose (by simp only [FieldValue.after?, hfirst]; rfl) ?_
  rcases matches_opt.mp (matches_all_singleton.mp hvs) with rfl | hvs
  · exact lands_run (accept?_of_avoids hks) (lands_pure _ rfl)
  · obtain ⟨dot, _, rfl, hdot, hname⟩ := matches_all_kind_cons.mp hvs
    obtain ⟨name, rfl, hkind⟩ := matches_kind_iff.mp (matches_all_singleton.mp hname)
    exact lands_run (accept?_cons hdot _)
      (lands_run (Name.production_cons hkind _ _) (lands_pure _ rfl))

theorem lands_field (h : Matches (.symbol .field) us)
    (hks : Avoids [.punctuation .dot, .keyword .AS] ks) :
    Lands Field.production (us ++ ks) (· = ks) := by
  obtain ⟨vs, ws, rfl, hvs, hws⟩ := matches_all_cons.mp (matches_symbol.mp h)
  rcases matches_opt.mp (matches_all_singleton.mp hws) with rfl | hws
  · rw [List.append_nil]
    refine lands_bind (lands_fieldValue hvs (hks.mono (by simp))) ?_
    rintro value _ rfl
    exact lands_run (accept?_of_avoids (hks.mono (by simp))) (lands_pure _ rfl)
  · obtain ⟨announcement, _, rfl, has, hname⟩ := matches_all_kind_cons.mp hws
    obtain ⟨name, rfl, hkind⟩ := matches_kind_iff.mp (matches_all_singleton.mp hname)
    rw [List.append_assoc]
    refine lands_bind (lands_fieldValue hvs (avoids_cons (by simp [has]))) ?_
    rintro value _ rfl
    exact lands_run (accept?_cons has _)
      (lands_run (Name.production_cons hkind _ _) (lands_pure _ rfl))

/-- Behind an element of a list stands a comma or what is behind the list. -/
theorem avoids_flatten {kind : TokenKind} {kinds : List TokenKind} {forms : List Form}
    {parts : List (List Token)} (hparts : ∀ us ∈ parts, Matches (.all (.kind kind :: forms)) us)
    (hkind : kind ∉ kinds) (hks : Avoids kinds ks) : Avoids kinds (parts.flatten ++ ks) := by
  cases parts with
  | nil => exact hks
  | cons us parts =>
      obtain ⟨hus, -⟩ := List.forall_mem_cons.mp hparts
      obtain ⟨t, vs, rfl, ht, -⟩ := matches_all_kind_cons.mp hus
      exact avoids_cons (ht ▸ hkind)

theorem lands_tail (h : Matches (.many (.all [.mark .comma, .symbol .field])) us)
    (hks : Avoids fieldTails ks) : Lands Fields.tail (us ++ ks) (· = ks) := by
  obtain ⟨parts, rfl, hparts⟩ := h.parts
  clear h
  induction parts with
  | nil =>
      rw [Fields.tail_eq]
      exact lands_run (accept?_of_avoids (hks.mono (by simp [fieldTails]))) (lands_pure _ rfl)
  | cons us parts ih =>
      obtain ⟨hus, hrest⟩ := List.forall_mem_cons.mp hparts
      obtain ⟨comma, vs, rfl, hcomma, hvs⟩ := matches_all_kind_cons.mp hus
      have hclear : Avoids [.punctuation .dot, .keyword .AS] (parts.flatten ++ ks) :=
        avoids_flatten hrest (by simp) (hks.mono (by simp [fieldTails]))
      rw [Fields.tail_eq, List.flatten_cons, List.append_assoc]
      refine lands_run (accept?_cons hcomma _) ?_
      refine lands_bind (lands_field (matches_all_singleton.mp hvs) hclear) ?_
      rintro field _ rfl
      refine lands_bind (ih hrest) ?_
      rintro others _ rfl
      exact lands_pure _ rfl

theorem lands_fields (h : Matches (.symbol .fields) us) (hks : Avoids fieldTails ks) :
    Lands Fields.production (us ++ ks) (· = ks) := by
  have hrule := matches_symbol.mp h
  simp only [rule, matches_any, List.mem_cons, List.not_mem_nil, or_false, exists_eq_or_imp,
    exists_eq_left] at hrule
  rcases hrule with hstar | hlist
  · obtain ⟨star, rfl, hkind⟩ := matches_kind_iff.mp hstar
    exact lands_run (accept?_cons hkind _) (lands_pure _ rfl)
  · obtain ⟨vs, ws, rfl, hvs, hws⟩ := matches_all_cons.mp hlist
    have hrest := matches_all_singleton.mp hws
    have hclear : Avoids [.punctuation .dot, .keyword .AS] (ws ++ ks) := by
      obtain ⟨parts, rfl, hparts⟩ := hrest.parts
      exact avoids_flatten hparts (by simp) (hks.mono (by simp [fieldTails]))
    rw [List.append_assoc]
    obtain ⟨first, _, hfirst, rfl⟩ := lands_field hvs hclear
    refine lands_run (accept?_of_avoids (Field.avoids_star_of_ok hfirst)) ?_
    refine lands_run hfirst ?_
    refine lands_bind (lands_tail hrest hks) ?_
    rintro rest _ rfl
    exact lands_pure _ rfl

end Production

namespace Source

open Production

variable {C : List Token → Prop} {ts us ks : List Token}

/-- The tail that `t` begins can be read, and what is behind it is in `C`. -/
inductive TailThen (C : List Token → Prop) (t : Token) : List Token → Prop
  | rename {name : Token} {rest : List Token} : t.kind = .keyword .AS →
      name.kind = .identifier → C rest → TailThen C t (name :: rest)
  | filter {condition : Token} {rest : List Token} : t.kind = .keyword .WHERE →
      condition.kind = .expression → C rest → TailThen C t (condition :: rest)
  | join {ts : List Token} : t.kind.isJoinOperator →
      (∀ left, Lands (joinOnto (aliasable nested) t left) ts C) → TailThen C t ts

theorem TailThen.mono {D : List Token → Prop} {t : Token} (h : TailThen C t ts)
    (hsub : ∀ rest, C rest → D rest) : TailThen D t ts := by
  cases h with
  | rename has hname hrest => exact .rename has hname (hsub _ hrest)
  | filter hwhere hcondition hrest => exact .filter hwhere hcondition (hsub _ hrest)
  | join hoperator hread => exact .join hoperator fun left => (hread left).mono hsub

/-- A set of continuations in which every tail that comes next can be read, and what is behind it is
again in the set. -/
def Absorbs (C : List Token → Prop) : Prop :=
  ∀ ⦃t : Token⦄ ⦃ts : List Token⦄, C (t :: ts) → t.kind ∈ tails → TailThen C t ts

/-- A place that is not in front of a tail absorbs, because there is nothing to absorb. -/
theorem absorbs_eq (h : Avoids tails ks) : Absorbs (· = ks) := by
  rintro t ts rfl ht
  exact absurd ht (h t rfl)

/-! ## Tails of a level

A level of a derivation adds tails of its own to a set in three ways. Behind the source inside it,
it reads the tails that it added or those of the levels around it, and in both cases it lands in the
set that it began with. -/

/-- The continuations with an alias in front, or none. -/
inductive AfterAlias (C : List Token → Prop) : List Token → Prop
  | stop {ts : List Token} : C ts → AfterAlias C ts
  | rename {t name : Token} {rest : List Token} : t.kind = .keyword .AS →
      name.kind = .identifier → C rest → AfterAlias C (t :: name :: rest)

/-- The continuations with a condition in front, or none. -/
inductive AfterFilter (C : List Token → Prop) : List Token → Prop
  | stop {ts : List Token} : C ts → AfterFilter C ts
  | filter {t condition : Token} {rest : List Token} : t.kind = .keyword .WHERE →
      condition.kind = .expression → C rest → AfterFilter C (t :: condition :: rest)

/-- The continuations with any number of joins in front. -/
inductive AfterJoins (C : List Token → Prop) : List Token → Prop
  | stop {ts : List Token} : C ts → AfterJoins C ts
  | join {t : Token} {ts rest : List Token} : t.kind.isJoinOperator →
      (∀ left, Lands (joinOnto (aliasable nested) t left) ts (· = rest)) →
      AfterJoins C rest → AfterJoins C (t :: ts)

theorem Absorbs.afterAlias (h : Absorbs C) : Absorbs (AfterAlias C) := by
  intro t ts hts ht
  cases hts with
  | stop hC => exact (h hC ht).mono fun _ => .stop
  | rename has hname hrest => exact .rename has hname (.stop hrest)

theorem Absorbs.afterFilter (h : Absorbs C) : Absorbs (AfterFilter C) := by
  intro t ts hts ht
  cases hts with
  | stop hC => exact (h hC ht).mono fun _ => .stop
  | filter hwhere hcondition hrest => exact .filter hwhere hcondition (.stop hrest)

theorem Absorbs.afterJoins (h : Absorbs C) : Absorbs (AfterJoins C) := by
  intro t ts hts ht
  cases hts with
  | stop hC => exact (h hC ht).mono fun _ => .stop
  | join hoperator hread hrest =>
      refine .join hoperator fun left => (hread left).mono ?_
      rintro _ rfl
      exact hrest

theorem lands_renamed_alias {t name : Token} {rest : List Token} (has : t.kind = .keyword .AS)
    (hname : name.kind = .identifier) (hrest : C rest) (source : Source) :
    Lands (renamed source) (t :: name :: rest) C :=
  lands_run (accept?_cons has _) (lands_run (Name.production_cons hname _ _) (lands_pure _ hrest))

theorem Absorbs.lands_renamed (h : Absorbs C) (hts : AfterAlias C ts) (source : Source) :
    Lands (renamed source) ts C := by
  cases hts with
  | rename has hname hrest => exact lands_renamed_alias has hname hrest source
  | stop hC =>
      rcases avoids_or_eq_cons (.keyword .AS) ts with hnone | ⟨t, rest, rfl, ht⟩
      · exact lands_run (accept?_of_avoids hnone) (lands_pure _ hC)
      · cases h hC (ht ▸ by decide) with
        | rename has hname hrest => exact lands_renamed_alias has hname hrest source
        | filter hwhere => exact nomatch hwhere.symm.trans ht
        | join hoperator => exact nomatch ht ▸ hoperator

theorem lands_filter_condition {t condition : Token} {rest : List Token}
    (hwhere : t.kind = .keyword .WHERE) (hcondition : condition.kind = .expression)
    (hrest : C rest) : Lands Filter.production? (t :: condition :: rest) C :=
  lands_run (accept?_cons hwhere _)
    (lands_run (Expression.production_cons hcondition _ _) (lands_pure _ hrest))

theorem Absorbs.lands_filter (h : Absorbs C) (hts : AfterFilter C ts) :
    Lands Filter.production? ts C := by
  cases hts with
  | filter hwhere hcondition hrest => exact lands_filter_condition hwhere hcondition hrest
  | stop hC =>
      rcases avoids_or_eq_cons (.keyword .WHERE) ts with hnone | ⟨t, rest, rfl, ht⟩
      · exact lands_run (accept?_of_avoids hnone) (lands_pure _ hC)
      · cases h hC (ht ▸ by decide) with
        | rename has => exact nomatch has.symm.trans ht
        | filter hwhere hcondition hrest => exact lands_filter_condition hwhere hcondition hrest
        | join hoperator => exact nomatch ht ▸ hoperator

theorem Absorbs.lands_joinAll (h : Absorbs C) (hts : AfterJoins C ts) (left : Source) :
    Lands (joinAll (aliasable nested) left) ts C := by
  -- Every join reads a token, so the induction is on the number of tokens.
  induction hlength : ts.length using Nat.strongRecOn generalizing ts left with
  | ind n ih =>
      rw [joinAll_eq forward_side]
      by_cases hjoin : ∃ t rest, ts = t :: rest ∧ t.kind.isJoinOperator
      · obtain ⟨t, rest, rfl, ht⟩ := hjoin
        refine lands_run (acceptIf_cons ht rest) ?_
        cases h.afterJoins hts (mem_tails_of_isJoinOperator ht) with
        | rename has => exact nomatch has ▸ ht
        | filter hwhere => exact nomatch hwhere ▸ ht
        | join _ hread =>
            obtain ⟨joined, behind, hrun, hbehind⟩ := hread left
            refine lands_run hrun (ih behind.length ?_ hbehind joined rfl)
            have hle := (forward_joinOnto forward_side t left).length_le hrun
            rw [← hlength, List.length_cons]
            exact Nat.lt_succ_of_le hle
      · have hnone : ∀ t ∈ ts.head?, ¬t.kind.isJoinOperator := by
          intro t ht hoperator
          obtain ⟨rest, rfl⟩ := List.head?_eq_some_iff.mp ht
          exact hjoin ⟨t, rest, rfl, hoperator⟩
        refine lands_run (acceptIf_of_not hnone) ?_
        cases hts with
        | stop hC => exact lands_pure left hC
        | join hoperator => exact absurd hoperator (hnone _ rfl)

/-- The production reads the tokens and lands behind them, up to tails, in every set that
absorbs. -/
def Completes (p : Production Source) (us : List Token) : Prop :=
  ∀ C : List Token → Prop, Absorbs C → ∀ ks, C ks → Lands p (us ++ ks) C

/-- The fields of a source and the word behind them, which a file and a selection have alike. -/
theorem lands_fields_from {β : Type} {f : Fields → Production β} {fs rest : List Token} {t : Token}
    (hfields : Matches (.symbol .fields) fs) (ht : t.kind = .keyword .FROM)
    (hf : ∀ fields, Lands (f fields) rest C) :
    Lands (do
      let fields ← Fields.production
      let _ ← word .FROM .sourceFrom
      f fields) (fs ++ t :: rest) C := by
  refine lands_bind (lands_fields hfields (avoids_cons (by simp [ht, fieldTails]))) ?_
  rintro fields _ rfl
  exact lands_run (take_cons ht _ _) (hf fields)

/-- The sources inside a source are shorter, and for them completeness is already known. -/
theorem completes_plain (h : Matches (.symbol .source) us)
    (ih : ∀ vs : List Token, vs.length < us.length → Matches (.symbol .selectSource) vs →
      Completes nested vs) : Completes (plain nested) us := by
  intro C hC ks hks
  have hrule := matches_symbol.mp h
  simp only [rule, matches_any, List.mem_cons, List.not_mem_nil, or_false, exists_eq_or_imp,
    exists_eq_left] at hrule
  rcases hrule with hfile | hselect | hname | hparen
  · obtain ⟨t, _, rfl, ht, hrest⟩ := matches_all_kind_cons.mp hfile
    obtain ⟨fs, _, rfl, hfields, hrest⟩ := matches_all_cons.mp hrest
    obtain ⟨announcement, _, rfl, hfrom, hrest⟩ := matches_all_kind_cons.mp hrest
    obtain ⟨path, rfl, hpath⟩ := matches_kind_iff.mp (matches_all_singleton.mp hrest)
    rw [List.cons_append, List.append_assoc]
    refine lands_choose (by simp only [after?, ht]; rfl) (lands_fields_from hfields hfrom ?_)
    intro fields
    exact lands_run (TextLiteral.production_cons hpath _ _) (lands_pure _ hks)
  · obtain ⟨t, _, rfl, ht, hrest⟩ := matches_all_kind_cons.mp hselect
    obtain ⟨fs, _, rfl, hfields, hrest⟩ := matches_all_cons.mp hrest
    obtain ⟨announcement, _, rfl, hfrom, hrest⟩ := matches_all_kind_cons.mp hrest
    obtain ⟨vs, ws, rfl, hsource, hrest⟩ := matches_all_cons.mp hrest
    have htail : AfterFilter C (ws ++ ks) := by
      rcases matches_opt.mp (matches_all_singleton.mp hrest) with rfl | hfilter
      · exact .stop hks
      · obtain ⟨w, _, rfl, hwhere, hrest⟩ := matches_all_kind_cons.mp hfilter
        obtain ⟨e, rfl, hcondition⟩ := matches_kind_iff.mp (matches_all_singleton.mp hrest)
        exact .filter hwhere hcondition hks
    have hnested : Lands nested (vs ++ (ws ++ ks)) (AfterFilter C) :=
      ih vs (by simp only [List.length_cons, List.length_append]; omega) hsource _
        hC.afterFilter _ htail
    rw [List.cons_append, List.append_assoc, List.cons_append, List.append_assoc]
    refine lands_choose (by simp only [after?, ht]; rfl) (lands_fields_from hfields hfrom ?_)
    intro fields
    refine lands_bind hnested fun source rest hrest => ?_
    exact lands_bind (hC.lands_filter hrest) fun filter _ => lands_pure _
  · obtain ⟨t, rfl, ht⟩ := matches_kind_iff.mp hname
    exact lands_choose (by simp only [after?, ht]; rfl) (lands_pure _ hks)
  · obtain ⟨t, _, rfl, ht, hrest⟩ := matches_all_kind_cons.mp hparen
    obtain ⟨vs, _, rfl, hsource, hrest⟩ := matches_all_cons.mp hrest
    obtain ⟨closing, rfl, hclosing⟩ := matches_kind_iff.mp (matches_all_singleton.mp hrest)
    have hplace : Avoids tails (closing :: ks) := avoids_cons (by simp [hclosing, tails, joinWords])
    have hnested : Lands nested (vs ++ closing :: ks) (· = closing :: ks) :=
      ih vs (by simp only [List.length_cons, List.length_append]; omega) hsource _
        (absorbs_eq hplace) _ rfl
    rw [List.cons_append, List.append_assoc]
    refine lands_choose (by simp only [after?, ht]; rfl) (lands_bind hnested ?_)
    rintro source _ rfl
    exact lands_run (take_cons hclosing _ _) (lands_pure _ hks)

theorem completes_aliasable (h : Matches (.symbol .aliasable) us)
    (ih : ∀ vs : List Token, vs.length < us.length → Matches (.symbol .selectSource) vs →
      Completes nested vs) : Completes (aliasable nested) us := by
  intro C hC ks hks
  obtain ⟨vs, ws, rfl, hsource, hrest⟩ := matches_all_cons.mp (matches_symbol.mp h)
  have htail : AfterAlias C (ws ++ ks) := by
    rcases matches_opt.mp (matches_all_singleton.mp hrest) with rfl | halias
    · exact .stop hks
    · obtain ⟨t, _, rfl, has, hrest⟩ := matches_all_kind_cons.mp halias
      obtain ⟨name, rfl, hname⟩ := matches_kind_iff.mp (matches_all_singleton.mp hrest)
      exact .rename has hname hks
  have hplain : Completes (plain nested) vs :=
    completes_plain hsource fun xs hxs => ih xs (by simp only [List.length_append]; omega)
  rw [aliasable_eq, List.append_assoc]
  exact lands_bind (hplain _ hC.afterAlias _ htail) fun source rest hrest =>
    hC.lands_renamed hrest source

/-- A join of a derivation is read as one, since what stands between its words is read up to the
word `ON`. -/
theorem afterJoins_append {part rest : List Token}
    (h : Matches (.all [.joinOperator, .word .JOIN, .symbol .aliasable, .word .ON,
      .kind .expression]) part)
    (ih : ∀ vs : List Token, vs.length < part.length → Matches (.symbol .aliasable) vs →
      Completes (aliasable nested) vs)
    (hrest : AfterJoins C rest) : AfterJoins C (part ++ rest) := by
  obtain ⟨ops, _, rfl, hoperator, hpart⟩ := matches_all_cons.mp h
  obtain ⟨operator, hoperator, hops⟩ := derives_joinOperator.mp hoperator
  obtain ⟨t, rfl, rfl⟩ := List.map_eq_singleton_iff.mp hops
  obtain ⟨j, _, rfl, hjoin, hpart⟩ := matches_all_kind_cons.mp hpart
  obtain ⟨vs, _, rfl, hside, hpart⟩ := matches_all_cons.mp hpart
  obtain ⟨o, _, rfl, hon, hpart⟩ := matches_all_kind_cons.mp hpart
  obtain ⟨e, rfl, hcondition⟩ := matches_kind_iff.mp (matches_all_singleton.mp hpart)
  have hplace : Avoids tails (o :: e :: rest) := avoids_cons (by simp [hon, tails, joinWords])
  have hright : Lands (aliasable nested) (vs ++ o :: e :: rest) (· = o :: e :: rest) :=
    ih vs (by simp only [List.length_cons, List.length_append]; omega) hside _
      (absorbs_eq hplace) _ rfl
  have hshape : [t] ++ j :: (vs ++ [o, e]) ++ rest = t :: j :: (vs ++ o :: e :: rest) := by simp
  rw [hshape]
  refine .join hoperator (fun left => ?_) hrest
  refine lands_run (take_cons hjoin _ _) (lands_bind hright ?_)
  rintro right _ rfl
  exact lands_run (take_cons hon _ _)
    (lands_run (Expression.production_cons hcondition _ _) (lands_pure _ rfl))

theorem afterJoins_flatten {parts : List (List Token)}
    (h : ∀ part ∈ parts, Matches (.all [.joinOperator, .word .JOIN, .symbol .aliasable, .word .ON,
      .kind .expression]) part)
    (ih : ∀ vs : List Token, vs.length < parts.flatten.length → Matches (.symbol .aliasable) vs →
      Completes (aliasable nested) vs)
    (hks : C ks) : AfterJoins C (parts.flatten ++ ks) := by
  induction parts with
  | nil => exact .stop hks
  | cons part parts step =>
      obtain ⟨hpart, hparts⟩ := List.forall_mem_cons.mp h
      have hlength : (part :: parts).flatten.length = part.length + parts.flatten.length := by simp
      rw [List.flatten_cons, List.append_assoc]
      refine afterJoins_append hpart (fun vs hvs => ih vs (by omega)) ?_
      exact step hparts fun vs hvs => ih vs (by omega)

theorem completes_nested (h : Matches (.symbol .selectSource) us) : Completes nested us := by
  -- The levels call each other, and all that goes down from one to the next is the length.
  induction hlength : us.length using Nat.strongRecOn generalizing us with
  | ind n ih =>
      have hshorter : ∀ vs : List Token, vs.length < us.length →
          Matches (.symbol .selectSource) vs → Completes nested vs :=
        fun vs hlt hvs => ih vs.length (hlength ▸ hlt) hvs rfl
      intro C hC ks hks
      obtain ⟨vs, ws, rfl, hfirst, hrest⟩ := matches_all_cons.mp (matches_symbol.mp h)
      have htail : AfterJoins C (ws ++ ks) := by
        obtain ⟨parts, rfl, hparts⟩ := (matches_all_singleton.mp hrest).parts
        refine afterJoins_flatten hparts (fun xs hxs hside => ?_) hks
        exact completes_aliasable hside fun ys hys => hshorter ys (by simp at hxs ⊢; omega)
      have hside : Completes (aliasable nested) vs :=
        completes_aliasable hfirst fun ys hys =>
          hshorter ys (by simp only [List.length_append]; omega)
      rw [nested_eq, List.append_assoc]
      exact lands_bind (hside _ hC.afterJoins _ htail) fun first rest hrest =>
        hC.lands_joinAll hrest first

/-- A source is read up to any place that is not in front of a tail. -/
theorem lands_production (h : Matches (.symbol .source) us) (hks : Avoids tails ks) :
    Lands production (us ++ ks) (· = ks) := by
  rw [production_eq]
  exact completes_plain h (fun vs _ => completes_nested) _ (absorbs_eq hks) _ rfl

end Source

end RecordFlow
