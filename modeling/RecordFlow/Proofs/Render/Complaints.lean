/-
# What a rendering complains about

A rendering stops for one of four reasons: the library refuses the values of a role, a join has no
type, a name has no variable, or the two sides of a join share a namespace. A name that is
complained about is a name of the script, and the values that are refused stand under the keys of
their role. So all that can be known of a complaint is known from the script and the library.
-/

import RecordFlow.Proofs.Render.Run
import RecordFlow.Proofs.Script.Nodes
import RecordFlow.Proofs.Snippet.Complete

namespace RecordFlow

/-- The complaints that a script can get with the snippets of a library. -/
inductive Script.Complaint (library : Library) (script : Script) : RenderFault → Prop
  | snippet {role : Role} {values : List (String × String)} {cause : SnippetError}
      (hkeys : values.map Prod.fst = role.keys)
      (hget : library.get role.name values = .error cause) :
      Complaint library script (.snippet cause)
  | joinType {token : Token} {left right : Source} {condition : Expression}
      (h : script.HasNode (.source (.join token left right condition)))
      (hkind : JoinType.ofKind? token.kind = none) :
      Complaint library script (.unknownJoinType token.kind)
  | unresolved {name : Name} (h : script.HasNode (.name name)) :
      Complaint library script (.unresolved name.text)
  | shared {name : Name} (h : script.HasNode (.name name)) :
      Complaint library script (.duplicateJoinName name.text)

/-- The namespaces of a source are names of the script. -/
theorem Script.HasNode.of_mem_namespaces {script : Script} {s : Source} {name : Name}
    (h : script.HasNode (.source s)) (hname : name ∈ s.namespaces) :
    script.HasNode (.name name) := by
  induction s with
  | file token choice path => exact nomatch hname
  | named other =>
      rw [List.mem_singleton.mp hname]
      exact h.child List.mem_cons_self
  | select token choice source filter? => exact nomatch hname
  | aliased token source other =>
      rw [List.mem_singleton.mp hname]
      exact h.child (List.mem_cons_of_mem _ List.mem_cons_self)
  | join token left right condition ihleft ihright =>
      rcases List.mem_append.mp hname with hleft | hright
      · exact ihleft (h.child List.mem_cons_self) hleft
      · exact ihright (h.child (List.mem_cons_of_mem _ List.mem_cons_self)) hright

namespace Render

variable {α : Type} {library : Library} {script : Script}

/-- A result whose error, if it is one, is a complaint that the script can get. -/
def Complains (library : Library) (script : Script) (r : Except RenderError α) : Prop :=
  Fails (fun e => script.Complaint library e.fault) r

theorem complains_ok (a : α) : Complains library script (.ok a) := fails_ok a

theorem complains_snippet {role : Role} {token : Token} {values : List (String × String)}
    (hkeys : values.map Prod.fst = role.keys) :
    Complains library script (snippet library role token values) := by
  unfold snippet
  split
  · exact complains_ok _
  · next hget => exact fails_error (.snippet hkeys hget)

theorem complains_field (f : Field) : Complains library script (field library f) := by
  unfold field
  split
  · exact complains_ok _
  · exact complains_snippet rfl
  · exact complains_snippet rfl
  · exact complains_snippet rfl

theorem complains_fields (choice : Fields) : Complains library script (fields library choice) := by
  cases choice with
  | star token => exact complains_snippet rfl
  | list first rest =>
      exact fails_bind (fails_mapM fun f _ => complains_field f) fun _ => complains_snippet rfl

theorem complains_filter (filter? : Option Filter) :
    Complains library script (filter library filter?) := by
  cases filter? with
  | none => exact complains_ok ""
  | some f => exact complains_snippet rfl

theorem complains_reference {name : Name} (h : script.HasNode (.name name)) (context : Context) :
    Complains library script (reference name context) := by
  unfold reference
  split
  · exact complains_ok _
  · exact fails_error (.unresolved h)

theorem complains_side (s : Source) (rendered : String) :
    Complains library script (side library s rendered) := by
  unfold side
  split
  · exact complains_snippet rfl
  · exact complains_ok _

theorem complains_joinType {token : Token} {left right : Source} {condition : Expression}
    (h : script.HasNode (.source (.join token left right condition))) :
    Complains library script (joinType token) := by
  unfold joinType
  split
  · exact complains_ok _
  · next hkind => exact fails_error (.joinType h hkind)

theorem complains_checkNamespaces (left : Source) {right : Source}
    (h : script.HasNode (.source right)) :
    Complains library script (checkNamespaces left right) := by
  unfold checkNamespaces
  split
  · next name hshared =>
      exact fails_error (.shared (h.of_mem_namespaces (List.mem_of_find?_eq_some hshared)))
  · exact complains_ok ()

theorem complains_hoist (left right : Source) (condition : Expression) (context : Context) :
    Complains library script (hoist library left right condition context) :=
  fails_bind (complains_snippet rfl) fun _ => complains_ok _

theorem complains_source {s : Source} (h : script.HasNode (.source s)) :
    ∀ context, Complains library script (source library s context) := by
  induction s with
  | file token choice path =>
      exact fails_run_bind (fails_run_lift (complains_fields choice)) fun _ =>
        fails_run_lift (complains_snippet rfl)
  | named name => exact complains_reference (h.child List.mem_cons_self)
  | select token choice inner filter? ih =>
      have hinner : script.HasNode (.source inner) :=
        h.child (List.mem_cons_of_mem _ List.mem_cons_self)
      exact fails_run_bind (ih hinner) fun _ =>
        fails_run_bind (fails_run_lift (complains_fields choice)) fun _ =>
          fails_run_bind (fails_run_lift (complains_filter filter?)) fun _ =>
            fails_run_lift (complains_snippet rfl)
  | aliased token inner name ih =>
      exact fails_run_bind (ih (h.child List.mem_cons_self)) fun _ =>
        fails_run_lift (complains_snippet rfl)
  | join token left right condition ihleft ihright =>
      have hleft : script.HasNode (.source left) := h.child List.mem_cons_self
      have hright : script.HasNode (.source right) :=
        h.child (List.mem_cons_of_mem _ List.mem_cons_self)
      exact fails_run_bind (ihleft hleft) fun leftText =>
        fails_run_bind (fails_run_lift (complains_side left leftText)) fun _ =>
          fails_run_bind (ihright hright) fun rightText =>
            fails_run_bind (fails_run_lift (complains_side right rightText)) fun _ =>
              fails_run_bind (fails_run_lift (complains_joinType h)) fun _ =>
                fails_run_bind (fails_run_lift (complains_checkNamespaces left hright)) fun _ =>
                  fails_run_bind (complains_hoist left right condition) fun _ =>
                    fails_run_lift (complains_snippet rfl)

theorem complains_statement {st : Statement} (h : script.HasNode (.statement st)) :
    ∀ context, Complains library script (statement library st context) := by
  have hbind : ∀ name context, Complains library script (bind name context) :=
    fun _ _ => complains_ok _
  cases st with
  | assign name input =>
      have hinput : script.HasNode (.source input) :=
        h.child (List.mem_cons_of_mem _ List.mem_cons_self)
      exact fails_run_bind (complains_source hinput) fun _ => fails_run_bind (hbind name) fun _ =>
        fails_run_lift (complains_snippet rfl)
  | output token input path =>
      exact fails_run_bind (complains_source (h.child List.mem_cons_self)) fun _ =>
        fails_run_bind (fun _ => complains_ok _) fun _ => fails_run_lift (complains_snippet rfl)
  | param token typed default? =>
      cases default? <;> exact fails_run_lift (complains_snippet rfl)
  | importName token name path =>
      exact fails_run_bind (hbind name) fun _ => fails_run_lift (complains_snippet rfl)
  | exportName token name =>
      exact fails_run_bind (complains_reference (h.child List.mem_cons_self)) fun _ =>
        fails_run_lift (complains_snippet rfl)
  | setVariable token name assigned => exact fails_run_lift (complains_snippet rfl)
  | defineVariable typed assigned => exact fails_run_lift (complains_snippet rfl)

theorem complains_statements {statements : List Statement}
    (h : ∀ st ∈ statements, script.HasNode (.statement st)) :
    ∀ context, Complains library script (statements.mapM (statement library) context) := by
  induction statements with
  | nil => exact fun _ => complains_ok _
  | cons st rest ih =>
      obtain ⟨hst, hrest⟩ := List.forall_mem_cons.mp h
      rw [List.mapM_cons]
      exact fails_run_bind (complains_statement hst) fun _ => fails_run_bind (ih hrest) fun _ _ =>
        complains_ok _

/-- A rendering fails with a complaint that the script can get. -/
theorem complains_render (library : Library) (script : Script) :
    Complains library script (render library script) := by
  rw [render_eq]
  exact fails_bind (complains_statements (fun _ hst => .statement hst) _) fun _ =>
    complains_snippet rfl

end Render

end RecordFlow
