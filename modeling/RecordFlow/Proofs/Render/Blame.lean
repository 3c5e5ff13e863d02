/-
# What a rendering blames

An error of a rendering stands at a token of the node that could not be rendered. So a script that
was read from a text is never blamed at a place where the text has no token, and a statement is
blamed only where it stands itself.
-/

import RecordFlow.Proofs.Script.Tokens
import RecordFlow.Render.Basic

namespace RecordFlow

theorem FieldValue.token_mem_tokens (value : FieldValue) : value.token ∈ value.tokens := by
  cases value with
  | input space? name => cases space? <;> exact List.mem_cons_self
  | text literal => exact List.mem_cons_self
  | number literal => exact List.mem_cons_self
  | truth literal => exact List.mem_cons_self
  | expression e => exact List.mem_cons_self

/-- A namespace stands in the source that has it. -/
theorem Source.token_mem_of_mem_namespaces {s : Source} {name : Name} (h : name ∈ s.namespaces) :
    name.token ∈ s.tokens := by
  induction s with
  | file token choice path => exact nomatch h
  | named other =>
      rw [namespaces, List.mem_singleton] at h
      rw [h]
      exact List.mem_cons_self
  | select token choice source filter? => exact nomatch h
  | aliased token source other =>
      rw [namespaces, List.mem_singleton] at h
      simp [tokens, h]
  | join token left right condition ihleft ihright =>
      rw [tokens, List.mem_cons, List.mem_append, List.mem_append]
      rcases List.mem_append.mp h with hleft | hright
      · exact .inr (.inl (.inl (ihleft hleft)))
      · exact .inr (.inl (.inr (ihright hright)))

namespace Render

variable {α β : Type} {P : Token → Prop} {library : Library}

section Fails

variable {Q : RenderError → Prop}

/-- A result whose error, if it is one, has a property. -/
def Fails (Q : RenderError → Prop) (r : Except RenderError α) : Prop := ∀ e, r = .error e → Q e

theorem fails_ok (a : α) : Fails Q (.ok a) := nofun

theorem fails_error {e : RenderError} (h : Q e) : Fails Q (.error e : Except RenderError α) := by
  intro e' he
  cases he
  exact h

theorem fails_bind {r : Except RenderError α} {f : α → Except RenderError β} (hr : Fails Q r)
    (hf : ∀ a, Fails Q (f a)) : Fails Q (r >>= f) := by
  cases r with
  | error e => exact fails_error (hr e rfl)
  | ok a => exact hf a

theorem fails_mapM {γ : Type} {g : γ → Except RenderError α} {xs : List γ}
    (h : ∀ x ∈ xs, Fails Q (g x)) : Fails Q (xs.mapM g) := by
  induction xs with
  | nil => exact fails_ok []
  | cons x xs ih =>
      obtain ⟨hx, hxs⟩ := List.forall_mem_cons.mp h
      rw [List.mapM_cons]
      exact fails_bind hx fun _ => fails_bind (ih hxs) fun _ => fails_ok _

variable {m : Rendering α} {f : α → Rendering β} {r : Except RenderError α}

theorem fails_run_bind (hm : ∀ context, Fails Q (m context))
    (hf : ∀ a context, Fails Q (f a context)) (context : Context) : Fails Q ((m >>= f) context) :=
  fails_bind (hm context) fun next => hf next.1 next.2

theorem fails_run_lift (hr : Fails Q r) (context : Context) :
    Fails Q ((liftM r : Rendering α) context) :=
  fails_bind hr fun _ => fails_ok _

end Fails

/-- A result that is an error only at a token with a property. -/
def Blames (P : Token → Prop) (r : Except RenderError α) : Prop :=
  ∀ e, r = .error e → ∃ t, P t ∧ e.position = t.position

theorem blames_ok (a : α) : Blames P (.ok a) := fails_ok a

theorem blames_error {fault : RenderFault} {t : Token} (h : P t) :
    Blames P (.error ⟨fault, t.position⟩ : Except RenderError α) :=
  fails_error ⟨t, h, rfl⟩

theorem blames_bind {r : Except RenderError α} {f : α → Except RenderError β} (hr : Blames P r)
    (hf : ∀ a, Blames P (f a)) : Blames P (r >>= f) := fails_bind hr hf

theorem blames_mapM {γ : Type} {g : γ → Except RenderError α} {xs : List γ}
    (h : ∀ x ∈ xs, Blames P (g x)) : Blames P (xs.mapM g) := fails_mapM h

/-- A snippet is missed where it was wanted. -/
theorem blames_snippet {role : Role} {token : Token} {values : List (String × String)}
    (h : P token) : Blames P (snippet library role token values) := by
  unfold snippet
  split
  · exact blames_ok _
  · exact blames_error h

theorem blames_field {f : Field} (h : ∀ t ∈ f.tokens, P t) : Blames P (field library f) := by
  obtain ⟨value, alias?⟩ := f
  cases alias? with
  | none =>
      have hvalue : P value.token := h _ value.token_mem_tokens
      cases value with
      | input space? name => exact blames_ok _
      | text literal => exact blames_snippet hvalue
      | number literal => exact blames_snippet hvalue
      | truth literal => exact blames_snippet hvalue
      | expression e => exact blames_snippet hvalue
  | some announced =>
      have halias : P announced.token := h _ (List.mem_append_right _ List.mem_cons_self)
      cases value <;> exact blames_snippet halias

theorem blames_fields {choice : Fields} (h : ∀ t ∈ choice.tokens, P t) :
    Blames P (fields library choice) := by
  cases choice with
  | star token => exact blames_snippet (h token List.mem_cons_self)
  | list first rest =>
      obtain ⟨hfirst, hrest⟩ := List.forall_mem_append.mp h
      have hfields : ∀ f ∈ first :: rest, Blames P (field library f) := by
        rw [List.forall_mem_cons]
        exact ⟨blames_field hfirst, fun f hf => blames_field fun t ht =>
          hrest t (List.mem_flatMap_of_mem hf ht)⟩
      have htoken : P first.value.token := by
        apply hfirst
        unfold Field.tokens
        split
        · exact List.mem_append_left _ first.value.token_mem_tokens
        · exact first.value.token_mem_tokens
      exact blames_bind (blames_mapM hfields) fun _ => blames_snippet htoken

theorem blames_filter {filter? : Option Filter}
    (h : ∀ t ∈ filter?.toList.flatMap Filter.tokens, P t) :
    Blames P (filter library filter?) := by
  cases filter? with
  | none => exact blames_ok ""
  | some f => exact blames_snippet (h f.token List.mem_cons_self)

section Steps

variable {m : Rendering α} {f : α → Rendering β} {r : Except RenderError α}

theorem blames_run_bind (hm : ∀ context, Blames P (m context))
    (hf : ∀ a context, Blames P (f a context)) (context : Context) :
    Blames P ((m >>= f) context) :=
  fails_run_bind hm hf context

theorem blames_run_lift (hr : Blames P r) (context : Context) :
    Blames P ((liftM r : Rendering α) context) :=
  fails_run_lift hr context

end Steps

theorem blames_reference {name : Name} (h : P name.token) (context : Context) :
    Blames P (reference name context) := by
  unfold reference
  split
  · exact blames_ok _
  · exact blames_error h

theorem blames_side {s : Source} (h : ∀ t ∈ s.tokens, P t) (rendered : String) :
    Blames P (side library s rendered) := by
  unfold side
  split
  · next name => exact blames_snippet (h name.token List.mem_cons_self)
  · exact blames_ok _

theorem blames_joinType {token : Token} (h : P token) : Blames P (joinType token) := by
  unfold joinType
  split
  · exact blames_ok _
  · exact blames_error h

/-- A name that both sides have is blamed on the right side. -/
theorem blames_checkNamespaces (left : Source) {right : Source}
    (h : ∀ t ∈ right.tokens, P t) : Blames P (checkNamespaces left right) := by
  unfold checkNamespaces
  split
  · next name hshared =>
      have hmem : name ∈ right.namespaces := List.mem_of_find?_eq_some hshared
      exact blames_error (h _ (Source.token_mem_of_mem_namespaces hmem))
  · exact blames_ok ()

theorem blames_hoist (left right : Source) {condition : Expression} (h : P condition.token)
    (context : Context) : Blames P (hoist library left right condition context) :=
  blames_bind (blames_snippet h) fun _ => blames_ok _

theorem blames_source {s : Source} (h : ∀ t ∈ s.tokens, P t) :
    ∀ context, Blames P (source library s context) := by
  induction s with
  | file token choice path =>
      obtain ⟨htoken, hrest⟩ := List.forall_mem_cons.mp h
      obtain ⟨hchoice, -⟩ := List.forall_mem_append.mp hrest
      exact blames_run_bind (blames_run_lift (blames_fields hchoice)) fun _ =>
        blames_run_lift (blames_snippet htoken)
  | named name => exact blames_reference (h name.token List.mem_cons_self)
  | select token choice inner filter? ih =>
      obtain ⟨htoken, hrest⟩ := List.forall_mem_cons.mp h
      obtain ⟨hparts, hfilter⟩ := List.forall_mem_append.mp hrest
      obtain ⟨hchoice, hinner⟩ := List.forall_mem_append.mp hparts
      exact blames_run_bind (ih hinner) fun _ =>
        blames_run_bind (blames_run_lift (blames_fields hchoice)) fun _ =>
          blames_run_bind (blames_run_lift (blames_filter hfilter)) fun _ =>
            blames_run_lift (blames_snippet htoken)
  | aliased token inner name ih =>
      obtain ⟨htoken, hrest⟩ := List.forall_mem_cons.mp h
      obtain ⟨hinner, -⟩ := List.forall_mem_append.mp hrest
      exact blames_run_bind (ih hinner) fun _ => blames_run_lift (blames_snippet htoken)
  | join token left right condition ihleft ihright =>
      obtain ⟨htoken, hrest⟩ := List.forall_mem_cons.mp h
      obtain ⟨hsides, hcondition⟩ := List.forall_mem_append.mp hrest
      obtain ⟨hleft, hright⟩ := List.forall_mem_append.mp hsides
      exact blames_run_bind (ihleft hleft) fun _ =>
        blames_run_bind (blames_run_lift (blames_side hleft _)) fun _ =>
          blames_run_bind (ihright hright) fun _ =>
            blames_run_bind (blames_run_lift (blames_side hright _)) fun _ =>
              blames_run_bind (blames_run_lift (blames_joinType htoken)) fun _ =>
                blames_run_bind (blames_run_lift (blames_checkNamespaces left hright)) fun _ =>
                  blames_run_bind
                    (blames_hoist left right (hcondition _ List.mem_cons_self)) fun _ =>
                    blames_run_lift (blames_snippet htoken)

/-- A statement is blamed where it stands. -/
theorem blames_statement {st : Statement} (h : ∀ t ∈ st.tokens, P t) :
    ∀ context, Blames P (statement library st context) := by
  have hbind : ∀ name context, Blames P (bind name context) := fun _ _ => blames_ok _
  cases st with
  | assign name input =>
      obtain ⟨hname, hinput⟩ := List.forall_mem_cons.mp h
      exact blames_run_bind (blames_source hinput) fun _ => blames_run_bind (hbind name) fun _ =>
        blames_run_lift (blames_snippet hname)
  | output token input path =>
      obtain ⟨htoken, hrest⟩ := List.forall_mem_cons.mp h
      obtain ⟨hinput, -⟩ := List.forall_mem_append.mp hrest
      exact blames_run_bind (blames_source hinput) fun _ =>
        blames_run_bind (fun _ => blames_ok _) fun _ => blames_run_lift (blames_snippet htoken)
  | param token typed default? =>
      have htoken := h token List.mem_cons_self
      cases default? <;> exact blames_run_lift (blames_snippet htoken)
  | importName token name path =>
      exact blames_run_bind (hbind name) fun _ =>
        blames_run_lift (blames_snippet (h token List.mem_cons_self))
  | exportName token name =>
      obtain ⟨htoken, hname⟩ := List.forall_mem_cons.mp h
      exact blames_run_bind (blames_reference (hname _ List.mem_cons_self)) fun _ =>
        blames_run_lift (blames_snippet htoken)
  | setVariable token name assigned =>
      exact blames_run_lift (blames_snippet (h token List.mem_cons_self))
  | defineVariable typed assigned =>
      exact blames_run_lift (blames_snippet (h typed.token List.mem_cons_self))

/-- Statements are blamed where they stand. -/
theorem blames_statements {statements : List Statement}
    (h : ∀ st ∈ statements, ∀ t ∈ st.tokens, P t) :
    ∀ context, Blames P (statements.mapM (statement library) context) := by
  induction statements with
  | nil => exact fun _ => blames_ok _
  | cons st rest ih =>
      obtain ⟨hst, hrest⟩ := List.forall_mem_cons.mp h
      rw [List.mapM_cons]
      exact blames_run_bind (blames_statement hst) fun _ => blames_run_bind (ih hrest) fun _ _ =>
        blames_ok _

end Render

end RecordFlow
