/-
# When rendering succeeds

With a complete library only two things can stop the rendering of a script that was read from
tokens: a name that is not bound yet, and a namespace on both sides of a join. What a part of a
rendering needs is therefore a condition on the names that are bound before it, and what it leaves
behind matters only through the names it binds. Both are said once for each part; the condition for
a script is the conjunction of them all.
-/

import RecordFlow.Compile
import RecordFlow.Proofs.Grammar.Soundness
import RecordFlow.Proofs.Script.Scope
import RecordFlow.Proofs.Snippet.Complete

namespace RecordFlow

namespace Render

variable {α β : Type}

/-- A rendering that succeeds exactly if the names bound before satisfy `needs`, and then binds the
names in `adds` behind them. -/
def Renders (m : Rendering α) (needs : List String → Prop) (adds : List String) : Prop :=
  ∀ context : Context,
    (needs context.bound ∧
      ∃ a next, m context = .ok (a, next) ∧ next.bound = context.bound ++ adds) ∨
    (¬needs context.bound ∧ ∃ e, m context = .error e)

section Steps

variable {m : Rendering α} {f : α → Rendering β} {e : Except RenderError α}
  {needs more : List String → Prop} {adds others : List String}

theorem Renders.congr (h : Renders m needs adds) (hneeds : ∀ bound, needs bound ↔ more bound)
    (hadds : adds = others) : Renders m more others := by
  intro context
  rw [← hneeds, ← hadds]
  exact h context

/-- A sequence needs what its first part needs, and what its second part needs once the first has
bound its names. -/
theorem renders_bind (hm : Renders m needs adds) (hf : ∀ a, Renders (f a) more others) :
    Renders (m >>= f) (fun bound => needs bound ∧ more (bound ++ adds)) (adds ++ others) := by
  intro context
  obtain ⟨hneeds, a, next, hrun, hbound⟩ | ⟨hneeds, e, hrun⟩ := hm context
  · have hstep : (m >>= f) context = f a next := by
      change Except.bind (m context) _ = _
      rw [hrun]
      rfl
    rw [hstep]
    obtain ⟨hmore, b, last, hlast, hadds⟩ | ⟨hmore, e, hlast⟩ := hf a next
    · rw [hbound] at hmore hadds
      exact .inl ⟨⟨hneeds, hmore⟩, b, last, hlast, by rw [hadds, List.append_assoc]⟩
    · rw [hbound] at hmore
      exact .inr ⟨fun h => hmore h.2, e, hlast⟩
  · have hstep : (m >>= f) context = .error e := by
      change Except.bind (m context) _ = _
      rw [hrun]
      rfl
    exact .inr ⟨fun h => hneeds h.1, e, hstep⟩

theorem renders_pure (a : α) : Renders (pure a) (fun _ => True) [] :=
  fun context => .inl ⟨trivial, a, context, rfl, (List.append_nil _).symm⟩

/-- A part that never fails and does not touch the state needs nothing. -/
theorem renders_lift (h : ∃ a, e = .ok a) : Renders (liftM e) (fun _ => True) [] := by
  obtain ⟨a, rfl⟩ := h
  exact renders_pure a

theorem renders_lift_bind (h : ∃ a, e = .ok a) (hf : ∀ a, Renders (f a) needs adds) :
    Renders (liftM e >>= f) needs adds := by
  obtain ⟨a, rfl⟩ := h
  exact hf a

/-- A last part that needs nothing and binds nothing changes nothing. -/
theorem Renders.bind_done (hm : Renders m needs adds)
    (hf : ∀ a, Renders (f a) (fun _ => True) []) : Renders (m >>= f) needs adds :=
  (renders_bind hm hf).congr (fun _ => and_iff_left trivial) (List.append_nil _)

theorem mapM_of_forall {γ : Type} {g : γ → Except RenderError α} (h : ∀ x, ∃ a, g x = .ok a)
    (xs : List γ) : ∃ as, xs.mapM g = .ok as := by
  induction xs with
  | nil => exact ⟨[], rfl⟩
  | cons x xs ih =>
      obtain ⟨a, ha⟩ := h x
      obtain ⟨as, has⟩ := ih
      exact ⟨a :: as, by rw [List.mapM_cons, ha, has]; rfl⟩

end Steps

section Library

variable {library : Library} (hlibrary : library.Complete)

include hlibrary

theorem field_of_complete (f : Field) : ∃ text, field library f = .ok text := by
  unfold field
  split
  · exact ⟨_, rfl⟩
  · exact snippet_of_complete hlibrary rfl _
  · exact snippet_of_complete hlibrary rfl _
  · exact snippet_of_complete hlibrary rfl _

theorem fields_of_complete (choice : Fields) : ∃ text, fields library choice = .ok text := by
  cases choice with
  | star token => exact snippet_of_complete hlibrary rfl token
  | list first rest =>
      obtain ⟨texts, htexts⟩ := mapM_of_forall (field_of_complete hlibrary) (first :: rest)
      rw [fields, htexts]
      exact snippet_of_complete hlibrary rfl _

theorem filter_of_complete (filter? : Option Filter) :
    ∃ text, filter library filter? = .ok text := by
  cases filter? with
  | none => exact ⟨"", rfl⟩
  | some f => exact snippet_of_complete hlibrary rfl _

theorem side_of_complete (s : Source) (rendered : String) :
    ∃ text, side library s rendered = .ok text := by
  unfold side
  split
  · exact snippet_of_complete hlibrary rfl _
  · exact ⟨rendered, rfl⟩

omit hlibrary in
theorem renders_reference (name : Name) :
    Renders (reference name) (fun bound => name.text ∈ bound) [] := by
  intro context
  unfold reference Context.resolve? Context.count
  cases hcount : context.bound.count name.text with
  | zero => exact .inr ⟨List.count_eq_zero.mp hcount, _, rfl⟩
  | succ n =>
      have hmem : name.text ∈ context.bound := List.count_pos_iff.mp (by omega)
      exact .inl ⟨hmem, _, context, rfl, (List.append_nil _).symm⟩

omit hlibrary in
theorem renders_checkNamespaces (left right : Source) :
    Renders (liftM (checkNamespaces left right)) (fun _ => left.Disjoint right) [] := by
  intro context
  rw [← Source.sharedNamespace?_eq_none_iff]
  unfold checkNamespaces
  cases left.sharedNamespace? right with
  | none => exact .inl ⟨rfl, (), context, rfl, (List.append_nil _).symm⟩
  | some name => exact .inr ⟨nofun, _, rfl⟩

omit hlibrary in
theorem joinType_of_isJoinOperator {token : Token} (h : token.kind.isJoinOperator) :
    ∃ type, joinType token = .ok type := by
  unfold TokenKind.isJoinOperator at h
  split at h
  case h_5 => exact nomatch h
  all_goals
    next hkind =>
      rw [joinType, hkind]
      exact ⟨_, rfl⟩

/-- Moving a condition out of a join binds no name. -/
theorem renders_hoist (left right : Source) (condition : Expression) :
    Renders (hoist library left right condition) (fun _ => True) [] := by
  intro context
  obtain ⟨function, hfunction⟩ : ∃ function,
      joinCondition library context.nextCondition left right condition = .ok function :=
    snippet_of_complete hlibrary rfl _
  refine .inl ⟨trivial, context.nextCondition, context.pushCondition function, ?_, ?_⟩
  · rw [hoist, hfunction]
    rfl
  · exact (List.append_nil _).symm

/-- A source needs every name it refers to, and its joins must be unambiguous. -/
theorem renders_source {s : Source} (hs : s.WellFormed) :
    Renders (source library s)
      (fun bound => (∀ name ∈ s.references, name.text ∈ bound) ∧ s.Unambiguous) [] := by
  induction s with
  | file token choice path =>
      have htext : Renders (source library (.file token choice path)) (fun _ => True) [] :=
        renders_lift_bind (fields_of_complete hlibrary choice) fun choiceText =>
          renders_lift (snippet_of_complete hlibrary rfl token)
      exact htext.congr (by simp [Source.references, Source.Unambiguous]) rfl
  | named name =>
      exact (renders_reference name).congr (by simp [Source.references, Source.Unambiguous]) rfl
  | select token choice inner filter? ih =>
      obtain ⟨-, -, hinner, -⟩ := hs
      exact (ih hinner).bind_done fun text =>
        renders_lift_bind (fields_of_complete hlibrary choice) fun choiceText =>
          renders_lift_bind (filter_of_complete hlibrary filter?) fun condition =>
            renders_lift (snippet_of_complete hlibrary rfl token)
  | aliased token inner name ih =>
      obtain ⟨-, hinner, -⟩ := hs
      exact (ih hinner).bind_done fun text =>
        renders_lift (snippet_of_complete hlibrary rfl token)
  | join token left right condition ihleft ihright =>
      obtain ⟨hjoin, hleft, hright, -⟩ := hs
      -- Both sides are rendered before their namespaces are compared, so the conditions come in
      -- that order and are sorted afterwards.
      refine Renders.congr (renders_bind (ihleft hleft) fun leftText =>
        renders_lift_bind (side_of_complete hlibrary left leftText) fun leftSide =>
          renders_bind (ihright hright) fun rightText =>
            renders_lift_bind (side_of_complete hlibrary right rightText) fun rightSide =>
              renders_lift_bind (joinType_of_isJoinOperator hjoin) fun type =>
                (renders_checkNamespaces left right).bind_done fun _ =>
                  (renders_hoist hlibrary left right condition).bind_done fun name =>
                    renders_lift (snippet_of_complete hlibrary rfl token)) (fun bound => ?_) rfl
      simp only [List.append_nil, Source.references, List.forall_mem_append, Source.Unambiguous]
      constructor
      · rintro ⟨⟨hl, hul⟩, ⟨hr, hur⟩, hdisjoint⟩
        exact ⟨⟨hl, hr⟩, hul, hur, hdisjoint⟩
      · rintro ⟨⟨hl, hr⟩, hul, hur, hdisjoint⟩
        exact ⟨⟨hl, hul⟩, ⟨hr, hur⟩, hdisjoint⟩

omit hlibrary in
theorem renders_bindName (name : Name) : Renders (bind name) (fun _ => True) [name.text] :=
  fun context => .inl ⟨trivial, (context.bind name.text).1, (context.bind name.text).2, rfl, rfl⟩

omit hlibrary in
theorem renders_nextOutput : Renders nextOutput (fun _ => True) [] :=
  fun context => .inl ⟨trivial, context.nextOutput.1, context.nextOutput.2, rfl,
    (List.append_nil _).symm⟩

/-- A statement that only fills a snippet is always rendered. -/
theorem renders_snippet {st : Statement} {role : Role} {token : Token}
    {values : List (String × String)} (hkeys : values.map Prod.fst = role.keys)
    (hsource : st.source? = none) (hreferences : st.references = []) :
    Renders (liftM (snippet library role token values)) (fun bound => st.Scoped bound) [] := by
  refine (renders_lift (snippet_of_complete hlibrary hkeys token)).congr (fun bound => ?_) rfl
  rw [Statement.scoped_iff_of_source?_eq_none hsource, hreferences]
  simp

/-- A statement is rendered if and only if it is scoped, and then its names are bound. -/
theorem renders_statement {st : Statement} (hst : st.WellFormed) :
    Renders (statement library st) (fun bound => st.Scoped bound) st.bindings := by
  cases st with
  | assign name input =>
      refine Renders.congr (renders_bind (renders_source hlibrary hst.2) fun text =>
        (renders_bindName name).bind_done fun generated =>
          renders_lift (snippet_of_complete hlibrary rfl name.token)) (fun bound => ?_) rfl
      rw [Statement.scoped_iff_of_source?_eq_some rfl]
      exact and_iff_left trivial
  | output token input path =>
      refine Renders.congr ((renders_source hlibrary hst.2.1).bind_done fun text =>
        renders_nextOutput.bind_done fun generated =>
          renders_lift (snippet_of_complete hlibrary rfl token)) (fun bound => ?_) rfl
      exact (Statement.scoped_iff_of_source?_eq_some rfl).symm
  | param token typed default? =>
      cases default? with
      | none => exact renders_snippet hlibrary rfl rfl rfl
      | some value => exact renders_snippet hlibrary rfl rfl rfl
  | importName token name path =>
      refine Renders.congr ((renders_bindName name).bind_done fun generated =>
        renders_lift (snippet_of_complete hlibrary rfl token)) (fun bound => ?_) rfl
      rw [Statement.scoped_iff_of_source?_eq_none rfl]
      simp [Statement.references]
  | exportName token name =>
      refine Renders.congr ((renders_reference name).bind_done fun generated =>
        renders_lift (snippet_of_complete hlibrary rfl token)) (fun bound => ?_) rfl
      rw [Statement.scoped_iff_of_source?_eq_none rfl]
      simp [Statement.references]
  | setVariable token name assigned => exact renders_snippet hlibrary rfl rfl rfl
  | defineVariable typed assigned => exact renders_snippet hlibrary rfl rfl rfl

/-- Statements are rendered if and only if each is scoped by the ones before it. -/
theorem renders_statements {statements : List Statement}
    (h : ∀ st ∈ statements, st.WellFormed) :
    Renders (statements.mapM (statement library)) (fun bound => ScopedAfter bound statements)
      (statements.flatMap Statement.bindings) := by
  induction statements with
  | nil => exact renders_pure []
  | cons st rest ih =>
      obtain ⟨hst, hrest⟩ := List.forall_mem_cons.mp h
      rw [List.mapM_cons]
      exact renders_bind (renders_statement hlibrary hst) fun text =>
        (ih hrest).bind_done fun texts => renders_pure _

/-- With a complete library a well-formed script is rendered if and only if it is well scoped. -/
theorem render_eq_ok_iff {s : Script} (hs : s.WellFormed) :
    (∃ text, render library s = .ok text) ↔ s.WellScoped := by
  have hget : Renders (get : Rendering Context) (fun _ => True) [] :=
    fun context => .inl ⟨trivial, context, context, rfl, (List.append_nil _).symm⟩
  have hscript : Renders (script library s) (fun bound => ScopedAfter bound s.statements)
      (s.statements.flatMap Statement.bindings) :=
    (renders_statements hlibrary hs).bind_done fun texts => hget.bind_done fun context =>
      renders_lift (snippet_of_complete hlibrary rfl s.token)
  rw [Script.wellScoped_iff]
  obtain ⟨hscoped, text, context, hrun, -⟩ | ⟨hscoped, e, hrun⟩ := hscript .empty
  · have hrender : render library s = .ok text := by
      rw [render, StateT.run', hrun]
      rfl
    exact iff_of_true ⟨text, hrender⟩ hscoped
  · have hrender : render library s = .error e := by
      rw [render, StateT.run', hrun]
      rfl
    rw [hrender]
    exact iff_of_false (fun ⟨_, h⟩ => nomatch h) hscoped

end Library

end Render

theorem parse_wellFormed (ts : List Token) : (parse ts).script.WellFormed :=
  Script.wellFormed_of_mem_readStatements _

theorem readScript_eq_ok_iff {source : String} {script : Script} :
    readScript source = .ok script ↔
      ∃ tokens, tokenize source = .ok tokens ∧ (parse tokens).errors = [] ∧
        (parse tokens).script = script := by
  unfold readScript
  cases tokenize source with
  | error e => simp
  | ok tokens =>
      cases herrors : (parse tokens).errors with
      | nil => simp [herrors]
      | cons e errors => simp [herrors]

theorem compile_eq_ok_iff {library : Library} {source text : String} :
    compile library source = .ok text ↔
      ∃ script, readScript source = .ok script ∧ render library script = .ok text := by
  unfold compile
  cases readScript source with
  | error diagnostics => simp
  | ok script => cases hrender : render library script <;> simp [hrender]

/-- With a complete library, whether a text compiles can be told without rendering it. -/
theorem compile_of_wellScoped {library : Library} (hlibrary : library.Complete) {source : String}
    (h : (readScript source).toOption.any fun script => script.WellScoped) :
    ∃ text, compile library source = .ok text := by
  cases hread : readScript source with
  | error diagnostics =>
      rw [hread] at h
      exact nomatch h
  | ok script =>
      rw [hread] at h
      obtain ⟨ts, -, -, rfl⟩ := readScript_eq_ok_iff.mp hread
      obtain ⟨text, htext⟩ := (Render.render_eq_ok_iff hlibrary (parse_wellFormed ts)).mpr
        (of_decide_eq_true h)
      exact ⟨text, compile_eq_ok_iff.mpr ⟨_, hread, htext⟩⟩

/-- Compilation with a complete library, such as the one that comes with the program, succeeds
exactly on the texts that can be scanned and read without an error and are well scoped. -/
theorem compile_succeeds_iff_wellScoped :
    Library.builtin.Complete ∧
      ∀ library : Library, library.Complete → ∀ source : String,
        (∃ text, compile library source = .ok text) ↔
          ∃ tokens, tokenize source = .ok tokens ∧ (parse tokens).errors = [] ∧
            (parse tokens).script.WellScoped := by
  refine ⟨Library.builtin_complete, fun library hlibrary source => ?_⟩
  have hrender := fun ts => Render.render_eq_ok_iff hlibrary (parse_wellFormed ts)
  simp only [compile_eq_ok_iff, readScript_eq_ok_iff]
  constructor
  · rintro ⟨text, script, ⟨tokens, htokens, herrors, rfl⟩, htext⟩
    exact ⟨tokens, htokens, herrors, (hrender tokens).mp ⟨text, htext⟩⟩
  · rintro ⟨tokens, htokens, herrors, hscoped⟩
    obtain ⟨text, htext⟩ := (hrender tokens).mpr hscoped
    exact ⟨text, (parse tokens).script, ⟨tokens, htokens, herrors, rfl⟩, htext⟩

/-- A name can be exported once it is imported, and not before. -/
theorem compile_succeeds_import_export :
    Library.builtin.Complete ∧
      (∃ text, compile .builtin "IMPORT a FROM \"m\"; EXPORT a;" = .ok text) ∧
      ¬∃ text, compile .builtin "EXPORT a;" = .ok text := by
  obtain ⟨hbuiltin, hiff⟩ := compile_succeeds_iff_wellScoped
  refine ⟨hbuiltin, (hiff .builtin hbuiltin _).mpr ?_, fun h => ?_⟩
  · have hread : (tokenize "IMPORT a FROM \"m\"; EXPORT a;").toOption.any fun tokens =>
        (parse tokens).errors = [] ∧ (parse tokens).script.WellScoped := by decide +kernel
    cases htokens : tokenize "IMPORT a FROM \"m\"; EXPORT a;" with
    | error e =>
        rw [htokens] at hread
        exact nomatch hread
    | ok tokens =>
        rw [htokens] at hread
        exact ⟨tokens, rfl, of_decide_eq_true hread⟩
  · obtain ⟨tokens, htokens, -, hscoped⟩ := (hiff .builtin hbuiltin _).mp h
    have hread : (tokenize "EXPORT a;").toOption.all fun tokens =>
        ¬(parse tokens).script.WellScoped := by decide +kernel
    rw [htokens] at hread
    exact of_decide_eq_true hread hscoped

end RecordFlow
