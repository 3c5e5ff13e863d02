/-
# Running a rendering

A script is rendered statement by statement, and the state in which its beginning is left is the
one from which the rest is rendered. What remains at the end is one snippet for the script. Whether
a snippet can be filled depends on its template and on the keys it is given, not on the texts under
them, so a script that can be rendered can also be rendered up to any of its statements.
-/

import RecordFlow.Compile
import RecordFlow.Proofs.Snippet.Complete

namespace RecordFlow

/-- A template takes values if and only if it has all of their keys. -/
theorem substitute_succeeds_iff {snippet template : String} {values : List (String × String)} :
    (∃ text, substitute snippet template values = .ok text) ↔
      ∀ key ∈ values.map Prod.fst, key ∈ Template.keys template := by
  rw [List.forall_mem_map]
  constructor
  · rintro ⟨text, h⟩ value hvalue
    unfold substitute at h
    split at h
    · exact nomatch h
    · next hnone => simpa using List.find?_eq_none.mp hnone value hvalue
  · intro h
    exact ⟨_, substitute_of_keys h⟩

/-- Characters that stand for themselves are kept. -/
theorem Template.flatMap_fill_literal (values : List (String × String)) (cs : List Char) :
    (cs.map Piece.literal).flatMap (Piece.fill values) = cs := by
  induction cs with
  | nil => rfl
  | cons c cs ih =>
      rw [List.map_cons, List.flatMap_cons, ih]
      rfl

namespace Render

variable {library : Library}

/-- A snippet can be filled if and only if there is one and it has all the keys. -/
theorem snippet_succeeds_iff {role : Role} {token : Token} {values : List (String × String)} :
    (∃ text, snippet library role token values = .ok text) ↔
      ∃ template, library role.name = .ok template ∧
        ∀ key ∈ values.map Prod.fst, key ∈ Template.keys template := by
  have hget : (∃ text, snippet library role token values = .ok text) ↔
      ∃ text, library.get role.name values = .ok text := by
    unfold snippet
    cases library.get role.name values <;> simp
  rw [hget, Library.get]
  cases library role.name with
  | error cause =>
      constructor
      · rintro ⟨_, h⟩
        cases h
      · rintro ⟨_, h, -⟩
        cases h
  | ok template =>
      refine substitute_succeeds_iff.trans ⟨fun h => ⟨template, rfl, h⟩, ?_⟩
      rintro ⟨_, htemplate, h⟩
      cases htemplate
      exact h

variable {α β : Type} {context next : Context} {earlier statements : List Statement}
  {texts : List String}

theorem ok_of_bind {e : Except RenderError α} {f : α → Except RenderError β} {b : β}
    (h : e >>= f = .ok b) : ∃ a, e = .ok a ∧ f a = .ok b := by
  cases e with
  | error fault => exact nomatch h
  | ok a => exact ⟨a, rfl, h⟩

/-- A rendering in two steps hands the state of the first on to the second. -/
theorem run_of_bind {m : Rendering α} {f : α → Rendering β} {b : β}
    (h : (m >>= f) context = .ok (b, next)) :
    ∃ a between, m context = .ok (a, between) ∧ f a between = .ok (b, next) := by
  obtain ⟨⟨a, between⟩, hm, hf⟩ := ok_of_bind h
  exact ⟨a, between, hm, hf⟩

/-- A step that needs no state leaves it alone. -/
theorem run_of_lift {e : Except RenderError α} {a : α}
    (h : (liftM e : Rendering α) context = .ok (a, next)) : e = .ok a ∧ context = next := by
  obtain ⟨a', rfl, hpure⟩ := ok_of_bind h
  cases hpure
  exact ⟨rfl, rfl⟩

theorem run_of_lift_bind {e : Except RenderError α} {f : α → Rendering β} {b : β}
    (h : (liftM e >>= f) context = .ok (b, next)) :
    ∃ a, e = .ok a ∧ f a context = .ok (b, next) := by
  obtain ⟨a, _, hlift, hf⟩ := run_of_bind h
  obtain ⟨he, rfl⟩ := run_of_lift hlift
  exact ⟨a, he, hf⟩

theorem mapM_append_eq (library : Library) (earlier statements : List Statement)
    (context : Context) :
    (earlier ++ statements).mapM (statement library) context =
      earlier.mapM (statement library) context >>= fun r =>
        statements.mapM (statement library) r.2 >>= fun s => .ok (r.1 ++ s.1, s.2) := by
  rw [List.mapM_append]
  rfl

/-- What is left of a script is rendered from the state in which its beginning was left. -/
theorem statements_append (h : earlier.mapM (statement library) context = .ok (texts, next)) :
    (earlier ++ statements).mapM (statement library) context =
      (statements.mapM (statement library) next).map fun r => (texts ++ r.1, r.2) := by
  rw [mapM_append_eq, h]
  change (statements.mapM (statement library) next >>= _) = _
  cases statements.mapM (statement library) next with
  | error fault => rfl
  | ok r => rfl

/-- The end of a rendering: the snippet of the script takes the texts of the statements and the
functions of the join conditions. -/
def finish (library : Library) (token : Token) (r : List String × Context) :
    Except RenderError String :=
  snippet library .script token
    [("statements", "\n".intercalate r.1), ("conditions", "\n\n".intercalate r.2.conditions)]

/-- A rendering is that of the statements, and its end. -/
theorem render_eq (library : Library) (s : Script) :
    render library s = s.statements.mapM (statement library) .empty >>= finish library s.token := by
  change (s.statements.mapM (statement library) .empty >>= fun r =>
    finish library s.token r >>= fun text => .ok (text, r.2)) >>= (fun r => .ok r.1) = _
  cases s.statements.mapM (statement library) .empty with
  | error fault => rfl
  | ok r =>
      change (finish library s.token r >>= _) >>= _ = finish library s.token r
      cases finish library s.token r <;> rfl

/-- Whatever was rendered, and wherever the script begins, its end can be rendered or cannot. -/
theorem finish_of_ok {token : Token} {r : List String × Context} {text : String}
    (h : finish library token r = .ok text) (place : Token) (s : List String × Context) :
    ∃ other, finish library place s = .ok other := by
  have htemplate := snippet_succeeds_iff.mp ⟨text, h⟩
  exact snippet_succeeds_iff.mpr htemplate

/-- A script that can be rendered can be rendered up to any of its statements. -/
theorem render_of_append {token : Token} {text : String}
    (h : render library ⟨token, earlier ++ statements⟩ = .ok text) (place : Token) :
    ∃ other, render library ⟨place, earlier⟩ = .ok other := by
  rw [render_eq] at h
  obtain ⟨r, hall, hfinish⟩ := ok_of_bind h
  rw [mapM_append_eq] at hall
  obtain ⟨s, hearlier, -⟩ := ok_of_bind hall
  obtain ⟨other, hother⟩ := finish_of_ok hfinish place s
  refine ⟨other, ?_⟩
  rw [render_eq, hearlier]
  exact hother

/-- What the snippet of a script that comes with the program has above the functions. -/
def builtinHead : String :=
  "// Generated by sift. Changes are overwritten on the next compile.\n" ++
    "import * as sift from \"sift-runtime\";\n\n"

/-- What the snippet of a script that comes with the program makes of the texts of the statements
and the functions of the join conditions. -/
def builtinText (texts functions : List String) : String :=
  builtinHead ++ "\n\n".intercalate functions ++ "\n\n" ++ "\n".intercalate texts ++ "\n"

theorem finish_builtin (token : Token) (texts : List String) (final : Context) :
    finish .builtin token (texts, final) = .ok (builtinText texts final.conditions) := by
  have hcut : Template.cut Role.script.template.toList =
      builtinHead.toList.map .literal ++ .placeholder .comment "conditions".toList ::
        ("\n\n".toList.map .literal ++ .placeholder .comment "statements".toList ::
          "\n".toList.map .literal) := by
    decide +kernel
  have hget : ∀ values : List (String × String), values.map Prod.fst = Role.script.keys →
      Library.builtin.get Role.script.name values =
        .ok (Template.fill Role.script.template values) := by
    intro values hkeys
    refine substitute_of_keys fun value hvalue => Role.script.template_keys value.1 ?_
    rw [← hkeys]
    exact List.mem_map_of_mem hvalue
  have hconditions : ∀ statements conditions : String,
      (Template.Piece.placeholder .comment "conditions".toList).fill
        [("statements", statements), ("conditions", conditions)] = conditions.toList :=
    fun _ _ => rfl
  have hstatements : ∀ statements conditions : String,
      (Template.Piece.placeholder .comment "statements".toList).fill
        [("statements", statements), ("conditions", conditions)] = statements.toList :=
    fun _ _ => rfl
  rw [finish, snippet, hget _ rfl]
  refine congrArg Except.ok (String.toList_inj.mp ?_)
  rw [Template.fill, String.toList_ofList, hcut]
  simp only [builtinText, List.flatMap_append, List.flatMap_cons, Template.flatMap_fill_literal,
    hconditions, hstatements, String.toList_append, List.append_assoc]

end Render

theorem ok_of_toOption {ε α : Type} {e : Except ε α} {a : α} (h : e.toOption = some a) :
    e = .ok a := by
  cases e with
  | error fault => cases h
  | ok value =>
      cases h
      rfl

/-- What the snippets of the program make of a text. Anything that is computed from its script and
from its rendered statements may be given to find them. -/
theorem compile_builtin {α : Type} {source : String} {f : Script → List String × Context → α}
    {a : α} (h : ((readScript source).toOption.bind fun script =>
      (script.statements.mapM (Render.statement .builtin) .empty).toOption.map (f script)) =
        some a) :
    ∃ script texts final, readScript source = .ok script ∧
      script.statements.mapM (Render.statement .builtin) .empty = .ok (texts, final) ∧
      f script (texts, final) = a ∧
      render .builtin script = .ok (Render.builtinText texts final.conditions) ∧
      compile .builtin source = .ok (Render.builtinText texts final.conditions) := by
  obtain ⟨script, hread, h⟩ := Option.bind_eq_some_iff.mp h
  obtain ⟨⟨texts, final⟩, hrun, ha⟩ := Option.map_eq_some_iff.mp h
  have hread := ok_of_toOption hread
  have hrun := ok_of_toOption hrun
  have hrender : render .builtin script = .ok (Render.builtinText texts final.conditions) := by
    rw [Render.render_eq, hrun]
    exact Render.finish_builtin script.token texts final
  refine ⟨script, texts, final, hread, hrun, ha, hrender, ?_⟩
  simp only [compile, hread, hrender]

end RecordFlow
