/-
# Rendering and places

A script and the same script at other places are rendered alike: both renderings stop with one
fault, or both succeed. Places decide nothing. They are told by errors, and a list of fields writes
its place into the text, so the texts may differ there. Without such a list they are the same.

Two runs are compared step by step. What they have computed so far is the same under a proposition
`same`, which is to say nothing when the scripts have lists of fields, and their states agree in all
that names are counted from.
-/

import RecordFlow.Proofs.Render.Run
import RecordFlow.Proofs.Script.Places

namespace RecordFlow

/-- Whether fields are listed. -/
def Fields.isList : Fields → Bool
  | star _ => false
  | list _ _ => true

/-- Whether fields are listed anywhere in a source. -/
def Source.listsFields : Source → Bool
  | file _ choice _ => choice.isList
  | named _ => false
  | select _ choice source _ => choice.isList || source.listsFields
  | aliased _ source _ => source.listsFields
  | join _ left right _ => left.listsFields || right.listsFields

/-- Whether fields are listed anywhere in a statement. -/
def Statement.listsFields : Statement → Bool
  | assign _ source => source.listsFields
  | output _ source _ => source.listsFields
  | _ => false

/-- Whether fields are listed anywhere in a script. -/
def Script.listsFields (script : Script) : Bool := script.statements.any Statement.listsFields

namespace Render

variable {α β : Type}

/-- Two results that are errors with one fault, or values that a relation holds of. -/
inductive Alike (R : α → α → Prop) : Except RenderError α → Except RenderError α → Prop
  | ok {a b : α} (h : R a b) : Alike R (.ok a) (.ok b)
  | error {e f : RenderError} (h : e.fault = f.fault) : Alike R (.error e) (.error f)

/-- Two values that are the same under a condition. -/
def Like (same : Prop) (a b : α) : Prop := same → a = b

theorem Like.refl (same : Prop) (a : α) : Like same a a := fun _ => rfl

variable {same : Prop} {library : Library}

theorem alike_bind {R : α → α → Prop} {S : β → β → Prop} {x y : Except RenderError α}
    {f g : α → Except RenderError β} (h : Alike R x y)
    (hnext : ∀ a b, R a b → Alike S (f a) (g b)) : Alike S (x >>= f) (y >>= g) := by
  cases h with
  | ok hab => exact hnext _ _ hab
  | error hfault => exact .error hfault

theorem alike_mapM {γ : Type} {move : γ → γ} {f : γ → Except RenderError α} {xs : List γ}
    (h : ∀ x ∈ xs, Alike (Like same) (f x) (f (move x))) :
    Alike (Like same) (xs.mapM f) ((xs.map move).mapM f) := by
  induction xs with
  | nil => exact .ok (.refl same [])
  | cons x xs ih =>
      obtain ⟨hx, hxs⟩ := List.forall_mem_cons.mp h
      rw [List.map_cons, List.mapM_cons, List.mapM_cons]
      refine alike_bind hx fun a b hab => alike_bind (ih hxs) fun as bs hrest => .ok ?_
      intro hsame
      rw [hab hsame, hrest hsame]

/-- Whether a template takes values, and which key it misses, depends on the keys alone. -/
theorem substitute_of_same_keys {values others : List (String × String)}
    (hkeys : values.map Prod.fst = others.map Prod.fst) (name template : String) :
    (∃ cause, substitute name template values = .error cause ∧
        substitute name template others = .error cause) ∨
      (substitute name template values = .ok (Template.fill template values) ∧
        substitute name template others = .ok (Template.fill template others)) := by
  have hfind : ∀ entries : List (String × String),
      (entries.find? fun entry => !(Template.keys template).contains entry.1).map Prod.fst =
        (entries.map Prod.fst).find? fun key => !(Template.keys template).contains key := by
    intro entries
    rw [List.find?_map]
    rfl
  have hmissing := (hfind values).trans ((congrArg _ hkeys).trans (hfind others).symm)
  unfold substitute
  generalize values.find? _ = first at hmissing
  generalize others.find? _ = second at hmissing
  cases first with
  | none =>
      rw [Option.map_none, eq_comm, Option.map_eq_none_iff] at hmissing
      rw [hmissing]
      exact .inr ⟨rfl, rfl⟩
  | some missed =>
      rw [Option.map_some, eq_comm, Option.map_eq_some_iff] at hmissing
      obtain ⟨other, rfl, hkey⟩ := hmissing
      exact .inl ⟨.missingPlaceholder name missed.1, rfl, by rw [← hkey]⟩

/-- Snippets that are given values under the same keys are filled alike. -/
theorem alike_snippet {role : Role} {values others : List (String × String)}
    (hkeys : values.map Prod.fst = others.map Prod.fst) (hvalues : Like same values others)
    (token other : Token) :
    Alike (Like same) (snippet library role token values) (snippet library role other others) := by
  cases htemplate : library role.name with
  | error cause =>
      have hmissing : ∀ entries, library.get role.name entries = .error cause := by
        intro entries
        rw [Library.get, htemplate]
        rfl
      rw [snippet, snippet, hmissing, hmissing]
      exact .error rfl
  | ok template =>
      have hget : ∀ entries, library.get role.name entries =
          substitute role.name template entries := by
        intro entries
        rw [Library.get, htemplate]
        rfl
      rw [snippet, snippet, hget, hget]
      obtain ⟨cause, hfirst, hsecond⟩ | ⟨hfirst, hsecond⟩ :=
        substitute_of_same_keys hkeys role.name template
      · rw [hfirst, hsecond]
        exact .error rfl
      · rw [hfirst, hsecond]
        refine .ok fun hsame => ?_
        rw [hvalues hsame]

variable (place : Position → Position)

theorem fieldValue_moved (v : FieldValue) : fieldValue (v.moved place) = fieldValue v := by
  cases v with
  | input space? name => cases space? <;> rfl
  | _ => rfl

theorem value_moved (v : Value) : value (v.moved place) = value v := by
  cases v <;> rfl

theorem alike_field (f : Field) :
    Alike (Like same) (field library f) (field library (f.moved place)) := by
  obtain ⟨v, alias?⟩ := f
  have hvalue := fieldValue_moved place v
  cases alias? with
  | none =>
      cases v with
      | input space? name => exact .ok fun _ => hvalue.symm
      | _ => exact alike_snippet (by rfl) (.refl same _) _ _
  | some announced =>
      cases v with
      | input space? name =>
          refine alike_snippet (by rfl) (fun _ => ?_) _ _
          rw [← hvalue]
          rfl
      | _ => exact alike_snippet (by rfl) (.refl same _) _ _

theorem alike_fields {choice : Fields} (hsame : same → choice.isList = false) :
    Alike (Like same) (fields library choice) (fields library (choice.moved place)) := by
  cases choice with
  | star token => exact alike_snippet (by rfl) (.refl same _) _ _
  | list first rest =>
      have hlist : ∀ a b : List (String × String), Like same a b := fun a b h => nomatch hsame h
      have htexts : Alike (Like same) ((first :: rest).mapM (field library))
          (((first :: rest).map (Field.moved place)).mapM (field library)) :=
        alike_mapM fun f _ => alike_field place f
      exact alike_bind htexts fun _ _ _ => alike_snippet (by rfl) (hlist _ _) _ _

theorem alike_filter (filter? : Option Filter) :
    Alike (Like same) (filter library filter?)
      (filter library (filter?.map (Filter.moved place))) := by
  cases filter? with
  | none => exact .ok (.refl same "")
  | some f => exact alike_snippet (by rfl) (.refl same _) _ _

theorem namespaces_moved (s : Source) :
    (s.moved place).namespaces = s.namespaces.map (Name.moved place) := by
  induction s with
  | join token left right condition ihleft ihright =>
      simp only [Source.moved, Source.namespaces, ihleft, ihright, List.map_append]
  | _ => rfl

theorem sharedNamespace?_moved (left right : Source) :
    (left.moved place).sharedNamespace? (right.moved place) =
      (left.sharedNamespace? right).map (Name.moved place) := by
  rw [Source.sharedNamespace?, Source.sharedNamespace?, namespaces_moved, namespaces_moved,
    List.find?_map]
  congr 2
  funext name
  rw [Function.comp_apply, List.any_map]
  rfl

theorem parameter_moved (s : Source) (fallback : String) :
    (s.moved place).parameter fallback = s.parameter fallback := by
  cases s with
  | join token left right condition =>
      have hnames := namespaces_moved place (.join token left right condition)
      have htexts : ∀ names : List Name,
          (names.map (Name.moved place)).map Name.text = names.map Name.text := by
        intro names
        rw [List.map_map]
        rfl
      unfold Source.parameter
      rw [hnames]
      cases (Source.join token left right condition).namespaces with
      | nil => rfl
      | cons name rest =>
          have hall := htexts (name :: rest)
          rw [List.map_cons] at hall ⊢
          simp only [Source.moved, hall]
  | _ => rfl

theorem alike_side {rendered other : String} (h : Like same rendered other) (s : Source) :
    Alike (Like same) (side library s rendered) (side library (s.moved place) other) := by
  cases s with
  | named name =>
      refine alike_snippet (by rfl) (fun hsame => ?_) _ _
      rw [h hsame]
      rfl
  | _ => exact .ok h

theorem alike_joinType (token : Token) :
    Alike (Like same) (joinType token) (joinType (token.moved place)) := by
  have hkind : (token.moved place).kind = token.kind := rfl
  rw [joinType, joinType, hkind]
  cases JoinType.ofKind? token.kind with
  | none => exact .error rfl
  | some type => exact .ok (.refl same type)

theorem alike_checkNamespaces (left right : Source) :
    Alike (Like same) (checkNamespaces left right)
      (checkNamespaces (left.moved place) (right.moved place)) := by
  rw [checkNamespaces, checkNamespaces, sharedNamespace?_moved]
  cases left.sharedNamespace? right with
  | none => exact .ok (.refl same ())
  | some name => exact .error rfl

theorem alike_joinCondition (name : String) (left right : Source) (condition : Expression) :
    Alike (Like same) (joinCondition library name left right condition)
      (joinCondition library name (left.moved place) (right.moved place)
        (condition.moved place)) := by
  refine alike_snippet (by rfl) (fun _ => ?_) _ _
  rw [parameter_moved, parameter_moved]
  rfl

end Render

/-! ## Two states

Rendering reads of its state only what names are counted from. Two states that agree in this give
the same names, whatever functions of join conditions they hold. -/

/-- Two states that agree in all that names are counted from, and in the functions of the join
conditions under a condition. -/
structure Context.Agrees (same : Prop) (context other : Context) : Prop where
  bound : context.bound = other.bound
  outputs : context.outputs = other.outputs
  joins : context.conditions.length = other.conditions.length
  conditions : Render.Like same context.conditions other.conditions

namespace Render

variable {α β : Type} {same : Prop} {library : Library}

/-- Two renderings that give like results and agreeing states in agreeing states. -/
def RunAlike (same : Prop) (m n : Rendering α) : Prop :=
  ∀ context other, Context.Agrees same context other →
    Alike (fun r s => Like same r.1 s.1 ∧ Context.Agrees same r.2 s.2) (m context) (n other)

theorem runAlike_bind {m n : Rendering α} {f g : α → Rendering β} (h : RunAlike same m n)
    (hnext : ∀ a b, Like same a b → RunAlike same (f a) (g b)) :
    RunAlike same (m >>= f) (n >>= g) := by
  intro context other hagrees
  exact alike_bind (h context other hagrees) fun r s hrs => hnext r.1 s.1 hrs.1 r.2 s.2 hrs.2

theorem runAlike_pure {a b : α} (h : Like same a b) :
    RunAlike same (pure a : Rendering α) (pure b) :=
  fun _ _ hagrees => .ok ⟨h, hagrees⟩

/-- Steps that leave the state alone and are alike. -/
theorem runAlike_lift {x y : Except RenderError α} (h : Alike (Like same) x y) :
    RunAlike same (liftM x : Rendering α) (liftM y) := by
  intro context other hagrees
  cases h with
  | ok hab => exact .ok ⟨hab, hagrees⟩
  | error hfault => exact .error hfault

theorem runAlike_mapM {γ : Type} {move : γ → γ} {f : γ → Rendering α} {xs : List γ}
    (h : ∀ x ∈ xs, RunAlike same (f x) (f (move x))) :
    RunAlike same (xs.mapM f) ((xs.map move).mapM f) := by
  induction xs with
  | nil => exact runAlike_pure (.refl same [])
  | cons x xs ih =>
      obtain ⟨hx, hxs⟩ := List.forall_mem_cons.mp h
      rw [List.map_cons, List.mapM_cons, List.mapM_cons]
      refine runAlike_bind hx fun a b hab => runAlike_bind (ih hxs) fun as bs hrest => ?_
      refine runAlike_pure fun hsame => ?_
      rw [hab hsame, hrest hsame]

variable (place : Position → Position)

theorem runAlike_reference (name : Name) :
    RunAlike same (reference name) (reference (name.moved place)) := by
  intro context other hagrees
  have hresolve : other.resolve? (name.moved place).text = context.resolve? name.text := by
    rw [Context.resolve?, Context.resolve?, Context.count, Context.count, hagrees.bound]
    rfl
  rw [reference, reference, hresolve]
  cases context.resolve? name.text with
  | none => exact .error rfl
  | some generated => exact .ok ⟨.refl same generated, hagrees⟩

theorem runAlike_bindName (name : Name) :
    RunAlike same (Render.bind name) (Render.bind (name.moved place)) := by
  intro context other hagrees
  have hcount : other.count name.text = context.count name.text := by
    rw [Context.count, Context.count, hagrees.bound]
  refine .ok ⟨fun _ => ?_, ⟨?_, hagrees.outputs, hagrees.joins, hagrees.conditions⟩⟩
  · exact congrArg (numbered name.text) hcount.symm
  · exact congrArg (· ++ [name.text]) hagrees.bound

theorem runAlike_nextOutput : RunAlike same nextOutput nextOutput := by
  intro context other hagrees
  refine .ok ⟨fun _ => ?_, ⟨hagrees.bound, ?_, hagrees.joins, hagrees.conditions⟩⟩
  · exact congrArg (numbered "output") hagrees.outputs
  · exact congrArg (· + 1) hagrees.outputs

/-- The function of a join condition is named by how many there are, which places do not change. -/
theorem runAlike_hoist (left right : Source) (condition : Expression) :
    RunAlike same (hoist library left right condition)
      (hoist library (left.moved place) (right.moved place) (condition.moved place)) := by
  intro context other hagrees
  have hname : other.nextCondition = context.nextCondition := by
    rw [Context.nextCondition, Context.nextCondition, hagrees.joins]
  have hfunction : Alike (Like same)
      (joinCondition library context.nextCondition left right condition) _ :=
    alike_joinCondition place context.nextCondition left right condition
  rw [hoist, hoist]
  simp only [hname]
  refine alike_bind hfunction fun function moved hlike => ?_
  refine .ok ⟨.refl same _, ⟨hagrees.bound, hagrees.outputs, ?_, fun hsame => ?_⟩⟩
  · simp [Context.pushCondition, hagrees.joins]
  · rw [Context.pushCondition, Context.pushCondition, hagrees.conditions hsame, hlike hsame]

/-- A source at other places is rendered alike, by induction on the source. -/
theorem runAlike_source {s : Source} (hsame : same → s.listsFields = false) :
    RunAlike same (source library s) (source library (s.moved place)) := by
  induction s with
  | file token choice path =>
      refine runAlike_bind (runAlike_lift (alike_fields place hsame)) fun chosen other hchosen => ?_
      refine runAlike_lift (alike_snippet (by rfl) (fun h => ?_) _ _)
      rw [hchosen h]
      rfl
  | named name => exact runAlike_reference place name
  | select token choice inner filter? ih =>
      have hparts : same → choice.isList = false ∧ inner.listsFields = false :=
        fun h => Bool.or_eq_false_iff.mp (hsame h)
      refine runAlike_bind (ih fun h => (hparts h).2) fun text other htext => ?_
      refine runAlike_bind (runAlike_lift (alike_fields place fun h => (hparts h).1))
        fun chosen otherChosen hchosen => ?_
      refine runAlike_bind (runAlike_lift (alike_filter place filter?))
        fun condition otherCondition hcondition => ?_
      refine runAlike_lift (alike_snippet (by rfl) (fun h => ?_) _ _)
      rw [htext h, hchosen h, hcondition h]
  | aliased token inner name ih =>
      refine runAlike_bind (ih hsame) fun text other htext => ?_
      refine runAlike_lift (alike_snippet (by rfl) (fun h => ?_) _ _)
      rw [htext h]
      rfl
  | join token left right condition ihleft ihright =>
      have hparts : same → left.listsFields = false ∧ right.listsFields = false :=
        fun h => Bool.or_eq_false_iff.mp (hsame h)
      refine runAlike_bind (ihleft fun h => (hparts h).1) fun leftText otherLeft hleft => ?_
      refine runAlike_bind (runAlike_lift (alike_side place hleft left))
        fun leftSide otherLeftSide hleftSide => ?_
      refine runAlike_bind (ihright fun h => (hparts h).2) fun rightText otherRight hright => ?_
      refine runAlike_bind (runAlike_lift (alike_side place hright right))
        fun rightSide otherRightSide hrightSide => ?_
      refine runAlike_bind (runAlike_lift (alike_joinType place token)) fun type other htype => ?_
      refine runAlike_bind (runAlike_lift (alike_checkNamespaces place left right)) fun _ _ _ => ?_
      refine runAlike_bind (runAlike_hoist place left right condition)
        fun name otherName hname => ?_
      refine runAlike_lift (alike_snippet (by rfl) (fun h => ?_) _ _)
      rw [hleftSide h, hrightSide h, htype h, hname h]

/-- A statement at other places is rendered alike. -/
theorem runAlike_statement {st : Statement} (hsame : same → st.listsFields = false) :
    RunAlike same (statement library st) (statement library (st.moved place)) := by
  cases st with
  | assign name input =>
      refine runAlike_bind (runAlike_source place hsame) fun text other htext => ?_
      refine runAlike_bind (runAlike_bindName place name) fun generated otherName hgenerated => ?_
      refine runAlike_lift (alike_snippet (by rfl) (fun h => ?_) _ _)
      rw [htext h, hgenerated h]
      rfl
  | output token input path =>
      refine runAlike_bind (runAlike_source place hsame) fun text other htext => ?_
      refine runAlike_bind runAlike_nextOutput fun generated otherName hgenerated => ?_
      refine runAlike_lift (alike_snippet (by rfl) (fun h => ?_) _ _)
      rw [htext h, hgenerated h]
      rfl
  | param token typed default? =>
      cases default? with
      | none => exact runAlike_lift (alike_snippet (by rfl) (.refl same _) _ _)
      | some default =>
          refine runAlike_lift (alike_snippet (by rfl) (fun h => ?_) _ _)
          rw [value_moved]
          rfl
  | importName token name path =>
      refine runAlike_bind (runAlike_bindName place name) fun generated otherName hgenerated => ?_
      refine runAlike_lift (alike_snippet (by rfl) (fun h => ?_) _ _)
      rw [hgenerated h]
      rfl
  | exportName token name =>
      refine runAlike_bind (runAlike_reference place name) fun generated otherName hgenerated => ?_
      refine runAlike_lift (alike_snippet (by rfl) (fun h => ?_) _ _)
      rw [hgenerated h]
      rfl
  | setVariable token name assigned =>
      refine runAlike_lift (alike_snippet (by rfl) (fun h => ?_) _ _)
      rw [value_moved]
      rfl
  | defineVariable typed assigned =>
      refine runAlike_lift (alike_snippet (by rfl) (fun h => ?_) _ _)
      rw [value_moved]
      rfl

/-- The end of a rendering, after the statements of two scripts were rendered alike. -/
theorem alike_finish {r s : List String × Context} (htexts : Like same r.1 s.1)
    (hagrees : Context.Agrees same r.2 s.2) (token other : Token) :
    Alike (Like same) (finish library token r) (finish library other s) := by
  refine alike_snippet (by rfl) (fun h => ?_) _ _
  rw [htexts h, hagrees.conditions h]

/-- A script and the same script at other places are rendered alike. -/
theorem alike_render {script : Script} (hsame : same → script.listsFields = false) :
    Alike (Like same) (render library script) (render library (script.moved place)) := by
  have hstatement : ∀ st ∈ script.statements,
      RunAlike same (statement library st) (statement library (st.moved place)) := by
    intro st hst
    refine runAlike_statement place fun h => ?_
    exact Bool.eq_false_iff.mpr (List.any_eq_false.mp (hsame h) st hst)
  rw [render_eq, render_eq]
  refine alike_bind (runAlike_mapM hstatement .empty .empty ⟨rfl, rfl, rfl, .refl same _⟩) ?_
  rintro r s ⟨htexts, hagrees⟩
  exact alike_finish htexts hagrees _ _

/-! ## Scripts that differ in places -/

theorem Alike.symm {x y : Except RenderError α} (h : Alike (Like same) x y) :
    Alike (Like same) y x := by
  cases h with
  | ok hab => exact .ok fun hsame => (hab hsame).symm
  | error hfault => exact .error hfault.symm

theorem Alike.trans {x y z : Except RenderError α} (h : Alike (Like same) x y)
    (hnext : Alike (Like same) y z) : Alike (Like same) x z := by
  cases h with
  | ok hab =>
      cases hnext with
      | ok hbc => exact .ok fun hsame => (hab hsame).trans (hbc hsame)
  | error hfault =>
      cases hnext with
      | error hother => exact .error (hfault.trans hother)

/-- Of two like results that are to be the same, one is what the other is. -/
theorem Alike.eq_ok {a : α} {x y : Except RenderError α} (h : Alike (Like same) x y) (hsame : same)
    (hx : x = .ok a) : y = .ok a := by
  cases h with
  | ok hab => rw [← hab hsame, hx]
  | error _ => exact nomatch hx

end Render

section

variable (place : Position → Position)

theorem Source.listsFields_moved (s : Source) : (s.moved place).listsFields = s.listsFields := by
  have hchoice : ∀ choice : Fields, (choice.moved place).isList = choice.isList := by
    intro choice
    cases choice <;> rfl
  induction s with
  | file token choice path => exact hchoice choice
  | named name => rfl
  | select token choice source filter? ih => rw [moved, listsFields, listsFields, hchoice, ih]
  | aliased token source name ih => exact ih
  | join token left right condition ihleft ihright =>
      rw [moved, listsFields, listsFields, ihleft, ihright]

theorem Script.listsFields_moved (script : Script) :
    (script.moved place).listsFields = script.listsFields := by
  have hstatement : ∀ st : Statement, (st.moved place).listsFields = st.listsFields := by
    intro st
    cases st with
    | assign name source => exact source.listsFields_moved place
    | output token source path => exact source.listsFields_moved place
    | _ => rfl
  rw [Script.listsFields, Script.moved, List.any_map]
  exact congrArg (List.any script.statements) (funext hstatement)

/-- Scripts that are the same up to places are rendered alike. -/
theorem render_of_moved_eq {script other : Script} (h : other.moved place = script.moved place)
    (library : Library) :
    Render.Alike (Render.Like (script.listsFields = false)) (render library script)
      (render library other) := by
  have hlists : other.listsFields = script.listsFields := by
    rw [← other.listsFields_moved place, h, script.listsFields_moved place]
  have hscript : Render.Alike (Render.Like (script.listsFields = false)) (render library script)
      (render library (script.moved place)) := Render.alike_render place id
  have hother : Render.Alike (Render.Like (script.listsFields = false)) (render library other)
      (render library (script.moved place)) := h ▸ Render.alike_render place hlists.trans
  exact hscript.trans hother.symm

end

end RecordFlow
