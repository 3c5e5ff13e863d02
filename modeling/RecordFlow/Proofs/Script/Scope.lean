/-
# Scopes

A name is in scope from the statement after the one that binds it. Assignments and imports bind
names; sources and exports refer to them. The two sides of a join are told apart by their
namespaces, so no namespace may be on both. A script is well scoped if both rules are kept
everywhere in it, at any depth.
-/

import RecordFlow.Script.Join

namespace RecordFlow

namespace Source

/-- The names that a source refers to, at any depth, from left to right. -/
def references : Source → List Name
  | file _ _ _ => []
  | named name => [name]
  | select _ _ source _ => source.references
  | aliased _ source _ => source.references
  | join _ left right _ => left.references ++ right.references

/-- Two sources that have no namespace in common. -/
def Disjoint (left right : Source) : Prop :=
  ∀ a ∈ left.namespaces, ∀ b ∈ right.namespaces, a.text ≠ b.text

/-- A source in which the sides of every join, at any depth, have no namespace in common. -/
def Unambiguous : Source → Prop
  | file _ _ _ => True
  | named _ => True
  | select _ _ source _ => source.Unambiguous
  | aliased _ source _ => source.Unambiguous
  | join _ left right _ => left.Unambiguous ∧ right.Unambiguous ∧ left.Disjoint right

instance (left right : Source) : Decidable (left.Disjoint right) :=
  inferInstanceAs (Decidable (∀ a ∈ left.namespaces, ∀ b ∈ right.namespaces, a.text ≠ b.text))

instance decidableUnambiguous : (source : Source) → Decidable source.Unambiguous
  | file _ _ _ => .isTrue trivial
  | named _ => .isTrue trivial
  | select _ _ source _ => decidableUnambiguous source
  | aliased _ source _ => decidableUnambiguous source
  | join _ left right _ =>
      have := decidableUnambiguous left
      have := decidableUnambiguous right
      inferInstanceAs (Decidable (left.Unambiguous ∧ right.Unambiguous ∧ left.Disjoint right))

theorem sharedNamespace?_eq_none_iff {left right : Source} :
    left.sharedNamespace? right = none ↔ left.Disjoint right := by
  simp only [sharedNamespace?, List.find?_eq_none, List.any_eq_true, beq_iff_eq, not_exists,
    not_and, Disjoint]
  exact ⟨fun h a ha b hb => h b hb a ha, fun h b hb a ha => h a ha b hb⟩

end Source

namespace Statement

/-- The source of a statement, if it has one. -/
def source? : Statement → Option Source
  | assign _ source => some source
  | output _ source _ => some source
  | _ => none

/-- The names that a statement refers to. -/
def references : Statement → List Name
  | assign _ source => source.references
  | output _ source _ => source.references
  | exportName _ name => [name]
  | _ => []

/-- The names that a statement binds. -/
def bindings : Statement → List String
  | assign name _ => [name.text]
  | importName _ name _ => [name.text]
  | _ => []

/-- A statement that refers only to the names in `bound` and whose joins are unambiguous. -/
def Scoped (bound : List String) (statement : Statement) : Prop :=
  (∀ name ∈ statement.references, name.text ∈ bound) ∧
    ∀ source ∈ statement.source?, source.Unambiguous

instance (bound : List String) (statement : Statement) : Decidable (statement.Scoped bound) :=
  inferInstanceAs (Decidable ((∀ name ∈ statement.references, name.text ∈ bound) ∧
    ∀ source ∈ statement.source?, source.Unambiguous))

/-- A statement without a source is a matter of its references alone. -/
theorem scoped_iff_of_source?_eq_none {statement : Statement} {bound : List String}
    (h : statement.source? = none) :
    statement.Scoped bound ↔ ∀ name ∈ statement.references, name.text ∈ bound := by
  simp [Scoped, h]

/-- A statement with a source is a matter of its source alone. -/
theorem scoped_iff_of_source?_eq_some {statement : Statement} {source : Source}
    {bound : List String} (h : statement.source? = some source) :
    statement.Scoped bound ↔
      (∀ name ∈ source.references, name.text ∈ bound) ∧ source.Unambiguous := by
  have hreferences : statement.references = source.references := by
    cases statement <;> cases h <;> rfl
  simp [Scoped, h, hreferences]

end Statement

/-- A script in which every statement is scoped by the statements strictly before it. -/
def Script.WellScoped (script : Script) : Prop :=
  ∀ earlier statement later, script.statements = earlier ++ statement :: later →
    statement.Scoped (earlier.flatMap Statement.bindings)

/-- Statements that are scoped one after another, with the names in `bound` to begin with. -/
def ScopedAfter (bound : List String) : List Statement → Prop
  | [] => True
  | statement :: rest => statement.Scoped bound ∧ ScopedAfter (bound ++ statement.bindings) rest

instance decidableScopedAfter : (bound : List String) → (statements : List Statement) →
    Decidable (ScopedAfter bound statements)
  | _, [] => .isTrue trivial
  | bound, statement :: rest =>
      have := decidableScopedAfter (bound ++ statement.bindings) rest
      inferInstanceAs (Decidable (_ ∧ _))

theorem scopedAfter_iff (bound : List String) (statements : List Statement) :
    ScopedAfter bound statements ↔
      ∀ earlier statement later, statements = earlier ++ statement :: later →
        statement.Scoped (bound ++ earlier.flatMap Statement.bindings) := by
  induction statements generalizing bound with
  | nil => simp [ScopedAfter]
  | cons first rest ih =>
      rw [ScopedAfter, ih]
      constructor
      · rintro ⟨hfirst, hrest⟩ earlier statement later heq
        cases earlier with
        | nil =>
            obtain ⟨rfl, rfl⟩ := List.cons.inj heq
            simpa using hfirst
        | cons head earlier =>
            obtain ⟨rfl, htail⟩ := List.cons.inj heq
            simpa using hrest earlier statement later htail
      · intro h
        refine ⟨by simpa using h [] first rest rfl, fun earlier statement later heq => ?_⟩
        simpa using h (first :: earlier) statement later (by rw [heq, List.cons_append])

/-- Being well scoped is checked statement by statement. -/
theorem Script.wellScoped_iff (script : Script) :
    script.WellScoped ↔ ScopedAfter [] script.statements := by
  rw [scopedAfter_iff]
  simp [WellScoped]

instance (script : Script) : Decidable script.WellScoped :=
  decidable_of_iff _ script.wellScoped_iff.symm

end RecordFlow
