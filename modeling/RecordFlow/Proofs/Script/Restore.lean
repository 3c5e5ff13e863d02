/-
# Sources are read back

Fields and sources that are written as tokens, in any layout, are read back as they were. The
argument is by levels. What is written bare is read by the innermost level that can read it, and
what follows it must not begin a tail that this level would take. Joins on the left are not read one
inside the other: reading a chain of joins continues with the joins behind it as if the chain had
been read before, and this is what the induction carries along the left side.
-/

import RecordFlow.Proofs.Production.Bound
import RecordFlow.Proofs.Script.Printer
import RecordFlow.Proofs.Script.WellFormed

namespace RecordFlow

open Production

theorem Name.WellFormed.read {name : Name} (h : name.WellFormed) (what : Expected)
    (ks : List Token) : Name.production what (name.token :: ks) = .ok name ks := by
  rw [Name.production_cons h.1, ← h.2]

theorem TextLiteral.WellFormed.read {literal : TextLiteral} (h : literal.WellFormed)
    (what : Expected) (ks : List Token) :
    TextLiteral.production what (literal.token :: ks) = .ok literal ks := by
  rw [TextLiteral.production_cons h.1, ← h.2]

theorem Expression.WellFormed.read {e : Expression} (h : e.WellFormed) (what : Expected)
    (ks : List Token) : Expression.production what (e.token :: ks) = .ok e ks := by
  rw [Expression.production_cons h.1, ← h.2]

namespace Layout

variable (layout : Layout) {ks : List Token}

theorem read_fieldValue {v : FieldValue} (h : v.WellFormed)
    (hks : Avoids [.punctuation .dot] ks) :
    FieldValue.production (layout.fieldValue v ++ ks) = .ok v ks := by
  cases v with
  | input space? name =>
      cases space? with
      | none =>
          have hafter : FieldValue.after? name.token = some (FieldValue.afterName name) := by
            simp only [FieldValue.after?, h.1]
            rw [← h.2]
          exact (choose_cons hafter ks).trans (bind_of_ok (accept?_of_avoids hks))
      | some space =>
          obtain ⟨hspace, hname⟩ := h
          have hafter : FieldValue.after? space.token = some (FieldValue.afterName space) := by
            simp only [FieldValue.after?, hspace.1]
            rw [← hspace.2]
          refine (choose_cons hafter _).trans ?_
          refine (bind_of_ok (accept?_cons (layout.kind_mark .dot) _)).trans ?_
          exact bind_of_ok (hname.read _ ks)
  | text literal =>
      exact choose_leaf (by simp only [FieldValue.after?, h.1]) (congrArg FieldValue.text h.2) ks
  | number literal =>
      have hnumber := congrArg FieldValue.number h.2
      rcases h.1 with hkind | hkind
      · exact choose_leaf (by simp only [FieldValue.after?, hkind]) hnumber ks
      · exact choose_leaf (by simp only [FieldValue.after?, hkind]) hnumber ks
  | truth literal =>
      exact choose_leaf (by simp only [FieldValue.after?, h.1]) (congrArg FieldValue.truth h.2) ks
  | expression e =>
      exact choose_leaf (by simp only [FieldValue.after?, h.1])
        (congrArg FieldValue.expression h.2) ks

theorem read_field {f : Field} (h : f.WellFormed)
    (hks : Avoids [.punctuation .dot, .keyword .AS] ks) :
    Field.production (layout.field f ++ ks) = .ok f ks := by
  obtain ⟨value, alias?⟩ := f
  obtain ⟨hvalue, halias⟩ := h
  rw [field, List.append_assoc]
  cases alias? with
  | none =>
      refine (bind_of_ok (layout.read_fieldValue hvalue (hks.mono (by simp)))).trans ?_
      exact bind_of_ok (accept?_of_avoids (hks.mono (by simp)))
  | some announced =>
      obtain ⟨has, hname⟩ := halias announced rfl
      refine (bind_of_ok (layout.read_fieldValue hvalue (avoids_cons (by simp [has])))).trans ?_
      exact (bind_of_ok (accept?_cons has _)).trans (bind_of_ok (hname.read _ ks))

/-- Behind a field stands a comma or what is behind the list. -/
theorem avoids_moreFields (rest : List Field) (hks : Avoids fieldTails ks) :
    Avoids [.punctuation .dot, .keyword .AS] (layout.moreFields rest ++ ks) := by
  cases rest with
  | nil => exact hks.mono (by simp [fieldTails])
  | cons f rest => exact avoids_cons (by simp)

theorem read_moreFields {rest : List Field} (h : ∀ f ∈ rest, f.WellFormed)
    (hks : Avoids fieldTails ks) :
    Fields.tail (layout.moreFields rest ++ ks) = .ok rest ks := by
  induction rest with
  | nil =>
      rw [Fields.tail_eq]
      exact bind_of_ok (accept?_of_avoids (hks.mono (by simp [fieldTails])))
  | cons f rest ih =>
      obtain ⟨hf, hrest⟩ := List.forall_mem_cons.mp h
      have hwritten : layout.moreFields (f :: rest) ++ ks =
          layout.mark .comma :: (layout.field f ++ (layout.moreFields rest ++ ks)) := by
        simp [moreFields]
      rw [Fields.tail_eq, hwritten]
      refine (bind_of_ok (accept?_cons (layout.kind_mark .comma) _)).trans ?_
      refine (bind_of_ok (layout.read_field hf (layout.avoids_moreFields rest hks))).trans ?_
      exact bind_of_ok (ih hrest)

theorem read_fields {choice : Fields} (h : choice.WellFormed) (hks : Avoids fieldTails ks) :
    Fields.production (layout.fields choice ++ ks) = .ok choice ks := by
  cases choice with
  | star token => exact bind_of_ok (accept?_cons h ks)
  | list first rest =>
      obtain ⟨hfirst, hrest⟩ := h
      have hread := layout.read_field hfirst (layout.avoids_moreFields rest hks)
      rw [fields, List.append_assoc]
      refine (bind_of_ok (accept?_of_avoids (Field.avoids_star_of_ok hread))).trans ?_
      refine (bind_of_ok hread).trans ?_
      exact bind_of_ok (layout.read_moreFields hrest hks)

end Layout

namespace Source

/-- The tails that a source written bare would take if they followed it. -/
def openTails : Source → List TokenKind
  | select _ _ _ _ => tails
  | _ => []

theorem openTails_subset_tails (s : Source) : .keyword .AS :: s.openTails ⊆ tails := by
  cases s <;> simp [openTails, tails]

/-- Whether a source is a join. -/
def isJoin : Source → Bool
  | join _ _ _ _ => true
  | _ => false

/-- Whether a source has an alias. -/
def isAliased : Source → Bool
  | aliased _ _ _ => true
  | _ => false

theorem joinAll_of_avoids {ks : List Token} (hks : Avoids joinWords ks) (s : Source) :
    joinAll (aliasable nested) s ks = .ok s ks := by
  rw [joinAll_eq forward_side]
  refine bind_of_ok (acceptIf_of_not fun t ht hjoin => ?_)
  exact hks t ht (mem_joinWords_of_isJoinOperator hjoin)

/-- A join that can be read becomes the left side of the joins behind it. -/
theorem joinAll_of_joinOnto {t : Token} {left joined : Source} {us ks : List Token}
    (ht : t.kind.isJoinOperator)
    (h : joinOnto (aliasable nested) t left us = .ok joined ks) :
    joinAll (aliasable nested) left (t :: us) = joinAll (aliasable nested) joined ks := by
  rw [joinAll_eq forward_side]
  exact (bind_of_ok (acceptIf_cons ht us)).trans (bind_of_ok h)

theorem aliasable_of_plain {us ks : List Token} {s : Source}
    (h : plain nested us = .ok s ks) (hks : Avoids [.keyword .AS] ks) :
    aliasable nested us = .ok s ks :=
  (bind_of_ok h).trans (bind_of_ok (accept?_of_avoids hks))

theorem nested_of_aliasable {us ks : List Token} {s : Source}
    (h : aliasable nested us = .ok s ks) :
    nested us = joinAll (aliasable nested) s ks :=
  (congrFun nested_eq us).trans (bind_of_ok h)

end Source

namespace Layout

open Source

variable (layout : Layout) {ks : List Token}

/-- What reading makes of a source that was written bare. Each level reads the sources that do not
need a level around it, and the outermost goes on with the joins that follow. -/
structure Restores (s : Source) : Prop where
  nested : ∀ ks, Avoids (.keyword .AS :: s.openTails) ks →
    nested (layout.bare s ++ ks) = joinAll (aliasable nested) s ks
  aliasable : s.isJoin = false → ∀ ks, Avoids (.keyword .AS :: s.openTails) ks →
    aliasable Source.nested (layout.bare s ++ ks) = .ok s ks
  plain : s.isJoin = false → s.isAliased = false → ∀ ks, Avoids s.openTails ks →
    plain Source.nested (layout.bare s ++ ks) = .ok s ks

variable {layout}

theorem Restores.of_plain {s : Source} (h : ∀ ks, Avoids s.openTails ks →
    Source.plain Source.nested (layout.bare s ++ ks) = .ok s ks) : layout.Restores s := by
  have haliasable : ∀ ks, Avoids (.keyword .AS :: s.openTails) ks →
      Source.aliasable Source.nested (layout.bare s ++ ks) = .ok s ks := fun ks hks =>
    aliasable_of_plain (h ks (hks.mono (by simp))) (hks.mono (by simp))
  exact ⟨fun ks hks => nested_of_aliasable (haliasable ks hks), fun _ => haliasable, fun _ _ => h⟩

/-- Parentheses close a source off from all that follows. -/
theorem Restores.parens {s : Source} (h : layout.Restores s) (ks : List Token) :
    Source.plain Source.nested (layout.parens (layout.bare s) ++ ks) = .ok s ks := by
  have hclose : Avoids tails (layout.mark .rightParen :: ks) :=
    avoids_cons (by simp [tails, joinWords])
  have hinside : Source.nested (layout.bare s ++ layout.mark .rightParen :: ks) =
      .ok s (layout.mark .rightParen :: ks) := by
    rw [h.nested _ (hclose.mono s.openTails_subset_tails),
      joinAll_of_avoids (hclose.mono (by simp [tails]))]
  have hafter : Source.after? Source.nested (layout.mark .leftParen) =
      some (afterParen Source.nested) := by
    simp [Source.after?]
  have hwritten : layout.parens (layout.bare s) ++ ks =
      layout.mark .leftParen :: (layout.bare s ++ layout.mark .rightParen :: ks) := by
    simp [Layout.parens]
  rw [hwritten]
  refine (choose_cons hafter _).trans ((bind_of_ok hinside).trans ?_)
  exact bind_of_ok (take_cons (layout.kind_mark .rightParen) _ ks)

/-- A source is written in parentheses, or it is bare where it needs none. -/
theorem source_cases (layout : Layout) (place : Source.Place) (s : Source) :
    layout.source place s = layout.parens (layout.bare s) ∨
      place.needsParens s = false ∧ layout.source place s = layout.bare s := by
  unfold source enclose
  cases place.needsParens s with
  | true => exact .inl rfl
  | false =>
      cases layout.extraParens place s with
      | true => exact .inl rfl
      | false => exact .inr ⟨rfl, rfl⟩

section Places

variable {s : Source} (h : layout.Restores s)

include h

theorem Restores.at_statement (hks : Avoids tails ks) :
    Source.plain Source.nested (layout.source .statement s ++ ks) = .ok s ks := by
  obtain hwritten | ⟨hneeds, hwritten⟩ := layout.source_cases .statement s <;> rw [hwritten]
  · exact h.parens ks
  · have hopen : Avoids s.openTails ks :=
      hks.mono (List.subset_of_cons_subset s.openTails_subset_tails)
    cases s with
    | aliased _ _ _ => exact nomatch hneeds
    | join _ _ _ _ => exact nomatch hneeds
    | _ => exact h.plain rfl rfl ks hopen

theorem Restores.at_renamed (ks : List Token) :
    Source.plain Source.nested (layout.source .renamed s ++ ks) = .ok s ks := by
  obtain hwritten | ⟨hneeds, hwritten⟩ := layout.source_cases .renamed s <;> rw [hwritten]
  · exact h.parens ks
  · cases s with
    | file _ _ _ => exact h.plain rfl rfl ks (fun _ _ => nofun)
    | named _ => exact h.plain rfl rfl ks (fun _ _ => nofun)
    | _ => exact nomatch hneeds

theorem Restores.at_right (hks : Avoids [.keyword .AS] ks) :
    Source.aliasable Source.nested (layout.source .right s ++ ks) = .ok s ks := by
  obtain hwritten | ⟨hneeds, hwritten⟩ := layout.source_cases .right s <;> rw [hwritten]
  · exact aliasable_of_plain (h.parens ks) hks
  · cases s with
    | select _ _ _ _ => exact nomatch hneeds
    | join _ _ _ _ => exact nomatch hneeds
    | _ => exact h.aliasable rfl ks hks

/-- In front of joins, only a selection has to be closed off. -/
theorem Restores.before_joins {place : Source.Place}
    (hplace : ∀ token choice inner filter?, place.needsParens (.select token choice inner filter?))
    (hks : Avoids [.keyword .AS] ks) :
    Source.nested (layout.source place s ++ ks) =
      joinAll (Source.aliasable Source.nested) s ks := by
  obtain hwritten | ⟨hneeds, hwritten⟩ := layout.source_cases place s <;> rw [hwritten]
  · exact nested_of_aliasable (aliasable_of_plain (h.parens ks) hks)
  · cases s with
    | select token choice inner filter? =>
        rw [hplace token choice inner filter?] at hneeds
        exact nomatch hneeds
    | _ => exact h.nested ks hks

end Places

/-- The fields of a source and the word behind them, which a file and a selection have alike. -/
theorem read_fields_from {α : Type} {choice : Fields} (h : choice.WellFormed)
    (f : Fields → Production α) (ks : List Token) :
    (do
      let choice ← Fields.production
      let _ ← Production.word .FROM .sourceFrom
      f choice) (layout.fields choice ++ layout.word .FROM :: ks) = f choice ks := by
  have hfrom : Avoids fieldTails (layout.word .FROM :: ks) := avoids_cons (by simp [fieldTails])
  refine (bind_of_ok (layout.read_fields h hfrom)).trans ?_
  exact bind_of_ok (take_cons (layout.kind_word .FROM) _ ks)

theorem read_filter {filter? : Option Filter} (h : ∀ filter ∈ filter?, filter.WellFormed)
    (hks : Avoids [.keyword .WHERE] ks) :
    Filter.production? (filter filter? ++ ks) = .ok filter? ks := by
  cases filter? with
  | none => exact bind_of_ok (accept?_of_avoids hks)
  | some f =>
      obtain ⟨hwhere, hcondition⟩ := h f rfl
      exact (bind_of_ok (accept?_cons hwhere _)).trans (bind_of_ok (hcondition.read _ ks))

/-- Behind the source of a selection stands its condition or what is behind the selection. -/
theorem avoids_filter {filter? : Option Filter} (h : ∀ filter ∈ filter?, filter.WellFormed)
    {kinds : List TokenKind} (hwhere : .keyword .WHERE ∉ kinds) (hks : Avoids kinds ks) :
    Avoids kinds (filter filter? ++ ks) := by
  cases filter? with
  | none => exact hks
  | some f => exact avoids_cons ((h f rfl).1 ▸ hwhere)

theorem restores_file {token : Token} {choice : Fields} {path : TextLiteral}
    (h : (Source.file token choice path).WellFormed) :
    layout.Restores (.file token choice path) := by
  obtain ⟨htoken, hchoice, hpath⟩ := h
  refine .of_plain fun ks _ => ?_
  have hafter : Source.after? Source.nested token = some (afterExtract token) := by
    simp only [Source.after?, htoken]
  have hwritten : layout.bare (.file token choice path) ++ ks =
      token :: (layout.fields choice ++ layout.word .FROM :: path.token :: ks) := by
    simp [bare]
  rw [hwritten]
  refine (choose_cons hafter _).trans ((layout.read_fields_from hchoice _ _).trans ?_)
  exact bind_of_ok (hpath.read _ ks)

theorem restores_named {name : Name} (h : (Source.named name).WellFormed) :
    layout.Restores (.named name) := by
  have hafter : Source.after? Source.nested name.token =
      some (pure (.named (.ofToken name.token))) := by
    simp only [Source.after?, h.1]
  exact .of_plain fun ks _ => choose_leaf hafter (congrArg Source.named h.2) ks

theorem restores_select {token : Token} {choice : Fields} {inner : Source}
    {filter? : Option Filter} (h : (Source.select token choice inner filter?).WellFormed)
    (ih : layout.Restores inner) : layout.Restores (.select token choice inner filter?) := by
  obtain ⟨htoken, hchoice, -, hfilter⟩ := h
  refine .of_plain fun ks hks => ?_
  have hafter : Source.after? Source.nested token = some (afterSelect Source.nested token) := by
    simp only [Source.after?, htoken]
  have hwritten : layout.bare (.select token choice inner filter?) ++ ks =
      token :: (layout.fields choice ++
        layout.word .FROM :: (layout.source .selection inner ++ (filter filter? ++ ks))) := by
    simp [bare, source]
  have hinner : Source.nested (layout.source .selection inner ++ (filter filter? ++ ks)) =
      .ok inner (filter filter? ++ ks) := by
    have hbehind : Avoids (.keyword .AS :: joinWords) (filter filter? ++ ks) :=
      avoids_filter hfilter (by simp [joinWords]) (hks.mono (by simp [openTails, tails]))
    rw [ih.before_joins (fun _ _ _ _ => rfl) (hbehind.mono (by simp)),
      joinAll_of_avoids (hbehind.mono (by simp))]
  rw [hwritten]
  refine (choose_cons hafter _).trans ((layout.read_fields_from hchoice _ _).trans ?_)
  refine (bind_of_ok hinner).trans ?_
  exact bind_of_ok (read_filter hfilter (hks.mono (by simp [openTails, tails])))

theorem restores_aliased {token : Token} {inner : Source} {name : Name}
    (h : (Source.aliased token inner name).WellFormed) (ih : layout.Restores inner) :
    layout.Restores (.aliased token inner name) := by
  obtain ⟨htoken, -, hname⟩ := h
  have haliasable : ∀ ks, Source.aliasable Source.nested
      (layout.bare (.aliased token inner name) ++ ks) = .ok (.aliased token inner name) ks := by
    intro ks
    have hwritten : layout.bare (.aliased token inner name) ++ ks =
        layout.source .renamed inner ++ token :: name.token :: ks := by
      simp [bare, source]
    rw [hwritten]
    refine (bind_of_ok (ih.at_renamed _)).trans ?_
    exact (bind_of_ok (accept?_cons htoken _)).trans (bind_of_ok (hname.read _ ks))
  exact ⟨fun ks _ => nested_of_aliasable (haliasable ks), fun _ ks _ => haliasable ks,
    fun _ => nofun⟩

theorem restores_join {token : Token} {left right : Source} {condition : Expression}
    (h : (Source.join token left right condition).WellFormed) (ihleft : layout.Restores left)
    (ihright : layout.Restores right) : layout.Restores (.join token left right condition) := by
  obtain ⟨htoken, -, -, hcondition⟩ := h
  refine ⟨fun ks _ => ?_, nofun, nofun⟩
  have hwritten : layout.bare (.join token left right condition) ++ ks =
      layout.source .left left ++ token :: layout.word .JOIN ::
        (layout.source .right right ++ layout.word .ON :: condition.token :: ks) := by
    simp [bare, source]
  have hnot : Avoids [.keyword .AS] (token :: layout.word .JOIN ::
      (layout.source .right right ++ layout.word .ON :: condition.token :: ks)) :=
    avoids_cons fun has => by
      rw [List.mem_singleton.mp has] at htoken
      exact nomatch htoken
  have hon : Avoids [.keyword .AS] (layout.word .ON :: condition.token :: ks) :=
    avoids_cons (by simp)
  -- The left side ends in `joinAll`, which has this join as its next step.
  rw [hwritten, ihleft.before_joins (fun _ _ _ _ => rfl) hnot]
  refine joinAll_of_joinOnto htoken ?_
  refine (bind_of_ok (take_cons (layout.kind_word .JOIN) _ _)).trans ?_
  refine (bind_of_ok (ihright.at_right hon)).trans ?_
  refine (bind_of_ok (take_cons (layout.kind_word .ON) _ _)).trans ?_
  exact bind_of_ok (hcondition.read _ ks)

theorem restores {s : Source} (h : s.WellFormed) : layout.Restores s := by
  induction s with
  | file token choice path => exact restores_file h
  | named name => exact restores_named h
  | select token choice inner filter? ih => exact restores_select h (ih h.2.2.1)
  | aliased token inner name ih => exact restores_aliased h (ih h.2.1)
  | join token left right condition ihleft ihright =>
      exact restores_join h (ihleft h.2.1) (ihright h.2.2.1)

/-- A source of a statement is read back. -/
theorem read_source {s : Source} (h : s.WellFormed) (hks : Avoids tails ks) :
    Source.production (layout.source .statement s ++ ks) = .ok s ks := by
  rw [production_eq]
  exact (restores h).at_statement hks

end Layout

end RecordFlow
