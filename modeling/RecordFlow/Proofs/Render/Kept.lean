/-
# What a script says is kept

The texts of a script that rendering has no say in: the code of its expressions, its strings and
file names in quotes, its numbers and truth values, the names of its input fields, its aliases, and
the variables of its bindings, references and outputs. Each stands in the rendered text unchanged
and in one piece, whatever the templates are and whatever the text looks like. A snippet takes every
value it is given or refuses to be filled, and values are not looked into, so a text that was put
into a snippet is still there when that snippet is put into another. Join conditions go another
way, through the functions that a rendering collects, and arrive with them.
-/

import RecordFlow.Proofs.Render.Static
import RecordFlow.Proofs.Render.Success

namespace RecordFlow

/-- A text that another one contains in one piece. -/
def Text.Holds (text piece : String) : Prop := piece.toList <:+: text.toList

namespace Text.Holds

theorem refl (text : String) : Holds text text := List.infix_rfl

theorem trans {outer text piece : String} (houter : Holds outer text) (htext : Holds text piece) :
    Holds outer piece :=
  List.IsInfix.trans htext houter

theorem append_left {text piece : String} (h : Holds text piece) (before : String) :
    Holds (before ++ text) piece := by
  rw [Holds, String.toList_append]
  exact List.IsInfix.trans h (List.suffix_append _ _).isInfix

theorem append_right {text piece : String} (h : Holds text piece) (behind : String) :
    Holds (text ++ behind) piece := by
  rw [Holds, String.toList_append]
  exact List.IsInfix.trans h (List.prefix_append _ _).isInfix

theorem intercalate {piece : String} {texts : List String} (h : piece ∈ texts)
    (separator : String) : Holds (separator.intercalate texts) piece := by
  induction texts with
  | nil => exact nomatch h
  | cons first rest ih =>
      cases rest with
      | nil =>
          rw [List.mem_singleton.mp h]
          exact refl first
      | cons second rest =>
          rw [String.intercalate_cons_cons]
          rcases List.mem_cons.mp h with rfl | hrest
          · exact ((refl piece).append_right separator).append_right _
          · exact (ih hrest).append_left _

end Text.Holds

open Text (Holds)

/-! ## What a script says -/

/-- A text between quotes. -/
def quoted (raw : String) : String := "\"" ++ raw ++ "\""

namespace FieldValue

/-- The text of what a field takes its value from. -/
def said : FieldValue → String
  | input none name => quoted name.text
  | input (some space) name => quoted (space.text ++ "." ++ name.text)
  | text literal => quoted literal.value
  | number literal => literal.value.text
  | truth literal => if literal.value then "true" else "false"
  | expression e => e.code

end FieldValue

namespace Value

/-- The text of a value of a variable. -/
def said : Value → String
  | text literal => quoted literal.value
  | number literal => literal.value.text
  | truth literal => if literal.value then "true" else "false"
  | reference _ name => name.text
  | expression e => e.code

end Value

/-- The texts of a field: its value, and its alias in quotes. -/
def Field.said (field : Field) : List String :=
  field.value.said :: (field.alias?.map fun announced => quoted announced.name.text).toList

/-- The texts of a choice of fields. -/
def Fields.said : Fields → List String
  | star _ => []
  | list first rest => (first :: rest).flatMap Field.said

/-- The variable of the latest binding of a name among some statements that bind it. -/
def latestVariable (earlier : List Statement) (name : Name) : String :=
  numbered name.text (bindingCount name.text earlier - 1)

/-- The variable of the next binding of a name behind some statements. -/
def nextVariable (earlier : List Statement) (name : Name) : String :=
  numbered name.text (bindingCount name.text earlier)

/-- The texts of a source behind the statements `earlier`. -/
def Source.said (earlier : List Statement) : Source → List String
  | file _ choice path => quoted path.value :: choice.said
  | named name => [latestVariable earlier name]
  | select _ choice inner filter? =>
      inner.said earlier ++ choice.said ++ (filter?.map fun filter => filter.condition.code).toList
  | aliased _ inner name => quoted name.text :: inner.said earlier
  | join _ left right condition =>
      left.said earlier ++ right.said earlier ++ [condition.code]

/-- The texts of a statement behind the statements `earlier`. -/
def Statement.said (earlier : List Statement) : Statement → List String
  | assign name source => nextVariable earlier name :: source.said earlier
  | output _ source path =>
      numbered "output" (outputCount earlier) :: quoted path.value :: source.said earlier
  | param _ field default? =>
      field.name.text :: field.typeName.text :: (default?.map Value.said).toList
  | importName _ name path => [nextVariable earlier name, name.text, quoted path.value]
  | exportName _ name => [latestVariable earlier name, name.text]
  | setVariable _ name assigned => [name.text, assigned.said]
  | defineVariable field assigned => [field.name.text, field.typeName.text, assigned.said]

/-- The texts of statements behind the statements `earlier`. -/
def saidAfter (earlier : List Statement) : List Statement → List String
  | [] => []
  | statement :: rest => statement.said earlier ++ saidAfter (earlier ++ [statement]) rest

/-- The texts of a script. -/
def Script.said (script : Script) : List String := saidAfter [] script.statements

/-- A placeholder is filled with the value of its key. -/
theorem Template.holds_fill {template key value : String} {values : List (String × String)}
    (hkey : key ∈ keys template) (hvalue : List.lookup key values = some value) :
    Holds (fill template values) value := by
  rw [keys, List.mem_eraseDups] at hkey
  obtain ⟨piece, hpiece, hpieceKey⟩ := List.mem_filterMap.mp hkey
  cases piece with
  | literal c => cases hpieceKey
  | placeholder form name =>
      obtain rfl := Option.some.inj hpieceKey
      have hfilled : Piece.fill values (.placeholder form name) = value.toList := by
        rw [Piece.fill, hvalue]
      obtain ⟨before, behind, hcut⟩ := List.append_of_mem hpiece
      rw [Holds, fill, String.toList_ofList, hcut, List.flatMap_append, List.flatMap_cons, hfilled,
        ← List.append_assoc]
      exact List.infix_append _ _ _

theorem Role.nodup_keys (role : Role) : role.keys.Nodup := by
  cases role <;> decide

/-- Where no key comes twice, every value is found under its key. -/
theorem lookup_of_mem {key value : String} {values : List (String × String)}
    (hnodup : (values.map Prod.fst).Nodup) (h : (key, value) ∈ values) :
    List.lookup key values = some value := by
  obtain ⟨front, back, rfl⟩ := List.append_of_mem h
  refine List.lookup_eq_some_iff.mpr ⟨front, back, rfl, fun other hother => bne_iff_ne.mpr ?_⟩
  rintro rfl
  rw [List.map_append, List.nodup_append] at hnodup
  exact hnodup.2.2 _ (List.mem_map_of_mem hother) _ List.mem_cons_self rfl

namespace Render

variable {library : Library} {text : String}

/-- A snippet that is given the values of its role contains each of them. -/
theorem holds_snippet {role : Role} {token : Token} {values : List (String × String)}
    (h : snippet library role token values = .ok text)
    (hkeys : values.map Prod.fst = role.keys) :
    ∀ value ∈ values.map Prod.snd, Holds text value := by
  intro value hvalue
  obtain ⟨⟨key, _⟩, hmem, rfl⟩ := List.mem_map.mp hvalue
  obtain ⟨template, htemplate, hplaces⟩ := snippet_succeeds_iff.mp ⟨text, h⟩
  have hget : library.get role.name values = .ok (Template.fill template values) := by
    rw [Library.get, htemplate]
    exact substitute_of_keys (List.forall_mem_map.mp hplaces)
  rw [snippet, hget] at h
  cases h
  exact Template.holds_fill (hplaces key (List.mem_map_of_mem hmem))
    (lookup_of_mem (hkeys ▸ role.nodup_keys) hmem)

theorem quote_eq_quoted (raw : String) : quote raw = quoted raw := rfl

theorem fieldValue_eq_said (v : FieldValue) : fieldValue v = v.said := by
  cases v with
  | input space? name => cases space? <;> rfl
  | _ => rfl

theorem value_eq_said (v : Value) : value v = v.said := by
  cases v <;> rfl

theorem holds_field {f : Field} (h : field library f = .ok text) :
    ∀ piece ∈ f.said, Holds text piece := by
  obtain ⟨v, alias?⟩ := f
  cases alias? with
  | none =>
      have hvalue : Holds text (fieldValue v) := by
        cases v with
        | input space? name =>
            cases h
            exact .refl _
        | _ => exact holds_snippet h rfl _ (by simp)
      rw [fieldValue_eq_said] at hvalue
      simpa [Field.said] using hvalue
  | some announced =>
      have hboth : Holds text (fieldValue v) ∧ Holds text (quote announced.name.text) := by
        cases v with
        | input space? name =>
            exact ⟨holds_snippet h rfl _ (by simp), holds_snippet h rfl _ (by simp)⟩
        | _ => exact ⟨holds_snippet h rfl _ (by simp), holds_snippet h rfl _ (by simp)⟩
      rw [fieldValue_eq_said, quote_eq_quoted] at hboth
      simpa [Field.said] using hboth

theorem mem_of_mapM {α β : Type} {f : α → Except RenderError β} {xs : List α} {ys : List β}
    (h : xs.mapM f = .ok ys) : ∀ x ∈ xs, ∃ y ∈ ys, f x = .ok y := by
  induction xs generalizing ys with
  | nil => exact nofun
  | cons first rest ih =>
      rw [List.mapM_cons] at h
      obtain ⟨y, hfirst, h⟩ := ok_of_bind h
      obtain ⟨more, hrest, h⟩ := ok_of_bind h
      cases h
      intro x hx
      rcases List.mem_cons.mp hx with rfl | hx
      · exact ⟨y, List.mem_cons_self, hfirst⟩
      · obtain ⟨z, hz, hxz⟩ := ih hrest x hx
        exact ⟨z, List.mem_cons_of_mem y hz, hxz⟩

theorem holds_fields {choice : Fields} (h : fields library choice = .ok text) :
    ∀ piece ∈ choice.said, Holds text piece := by
  cases choice with
  | star token => exact nofun
  | list first rest =>
      obtain ⟨texts, htexts, hsnippet⟩ := ok_of_bind h
      have hall : Holds text (", ".intercalate texts) := holds_snippet hsnippet rfl _ (by simp)
      intro piece hpiece
      obtain ⟨f, hf, hpiece⟩ := List.mem_flatMap.mp hpiece
      obtain ⟨rendered, hrendered, hfield⟩ := mem_of_mapM htexts f hf
      exact hall.trans ((Holds.intercalate hrendered _).trans (holds_field hfield piece hpiece))

theorem holds_filter {filter? : Option Filter} (h : filter library filter? = .ok text) :
    ∀ piece ∈ (filter?.map fun filter => filter.condition.code).toList, Holds text piece := by
  cases filter? with
  | none => exact nofun
  | some f =>
      have hcode : Holds text f.condition.code := holds_snippet h rfl _ (by simp)
      simpa using hcode

/-- A text that stands in a rendered source or in one of the functions of its join conditions. -/
def Static.Retains (rendered : String) (functions : List String) (piece : String) : Prop :=
  Holds rendered piece ∨ ∃ function ∈ functions, Holds function piece

/-- What is retained is retained by every text around the source and by more functions. -/
theorem Static.Retains.within {rendered outer piece : String} {functions more : List String}
    (h : Retains rendered functions piece) (houter : Holds outer rendered)
    (hmore : functions ⊆ more) : Retains outer more piece := by
  rcases h with hrendered | ⟨function, hfunction, hholds⟩
  · exact .inl (houter.trans hrendered)
  · exact .inr ⟨function, hmore hfunction, hholds⟩

theorem reference_eq_latestVariable {earlier : List Statement} {name : Name}
    (h : Static.reference earlier name = .ok text) : text = latestVariable earlier name := by
  unfold Static.reference at h
  unfold latestVariable
  split at h
  · exact nomatch h
  · next k hcount =>
      cases h
      rw [hcount]
      rfl

/-- A side of a join holds the source it is made from. -/
theorem holds_side {s : Source} {rendered : String} (h : side library s rendered = .ok text) :
    Holds text rendered := by
  cases s with
  | named name => exact holds_snippet h rfl _ (by simp)
  | _ =>
      cases h
      exact .refl _

/-- A rendered source retains what the source says. -/
theorem retains_source {earlier : List Statement} {s : Source} {joins : Nat}
    {functions : List String} (h : Static.source library earlier s joins = .ok (text, functions)) :
    ∀ piece ∈ s.said earlier, Static.Retains text functions piece := by
  induction s generalizing joins text functions with
  | file token choice path =>
      obtain ⟨chosen, hchosen, h⟩ := ok_of_bind h
      obtain ⟨_, hsnippet, h⟩ := ok_of_bind h
      cases h
      have hvalues := holds_snippet hsnippet rfl
      intro piece hpiece
      rcases List.mem_cons.mp hpiece with rfl | hpiece
      · exact .inl (hvalues _ (by simp [quote_eq_quoted]))
      · exact .inl ((hvalues chosen (by simp)).trans (holds_fields hchosen piece hpiece))
  | named name =>
      obtain ⟨generated, hreference, h⟩ := ok_of_bind h
      cases h
      intro piece hpiece
      rw [List.mem_singleton.mp hpiece, ← reference_eq_latestVariable hreference]
      exact .inl (.refl _)
  | select token choice inner filter? ih =>
      obtain ⟨⟨innerText, innerFunctions⟩, hinner, h⟩ := ok_of_bind h
      obtain ⟨chosen, hchosen, h⟩ := ok_of_bind h
      obtain ⟨condition, hcondition, h⟩ := ok_of_bind h
      obtain ⟨_, hsnippet, h⟩ := ok_of_bind h
      cases h
      have hvalues := holds_snippet hsnippet rfl
      intro piece hpiece
      rw [Source.said, List.mem_append, List.mem_append] at hpiece
      rcases hpiece with (hpiece | hpiece) | hpiece
      · exact (ih hinner piece hpiece).within (hvalues innerText (by simp)) (List.Subset.refl _)
      · exact .inl ((hvalues chosen (by simp)).trans (holds_fields hchosen piece hpiece))
      · exact .inl ((hvalues condition (by simp)).trans (holds_filter hcondition piece hpiece))
  | aliased token inner name ih =>
      obtain ⟨⟨innerText, innerFunctions⟩, hinner, h⟩ := ok_of_bind h
      obtain ⟨_, hsnippet, h⟩ := ok_of_bind h
      cases h
      have hvalues := holds_snippet hsnippet rfl
      intro piece hpiece
      rcases List.mem_cons.mp hpiece with rfl | hpiece
      · exact .inl (hvalues _ (by simp [quote_eq_quoted]))
      · exact (ih hinner piece hpiece).within (hvalues innerText (by simp)) (List.Subset.refl _)
  | join token left right condition ihleft ihright =>
      obtain ⟨⟨leftText, leftFunctions⟩, hleft, h⟩ := ok_of_bind h
      obtain ⟨leftSide, hleftSide, h⟩ := ok_of_bind h
      obtain ⟨⟨rightText, rightFunctions⟩, hright, h⟩ := ok_of_bind h
      obtain ⟨rightSide, hrightSide, h⟩ := ok_of_bind h
      obtain ⟨type, -, h⟩ := ok_of_bind h
      obtain ⟨-, -, h⟩ := ok_of_bind h
      obtain ⟨function, hfunction, h⟩ := ok_of_bind h
      obtain ⟨_, hsnippet, h⟩ := ok_of_bind h
      cases h
      have hvalues := holds_snippet hsnippet rfl
      have hcode : Holds function condition.code := holds_snippet hfunction rfl _ (by simp)
      intro piece hpiece
      rw [Source.said, List.mem_append, List.mem_append, List.mem_singleton] at hpiece
      rcases hpiece with (hpiece | hpiece) | rfl
      · have hside := (hvalues leftSide (by simp)).trans (holds_side hleftSide)
        exact (ihleft hleft piece hpiece).within hside (by simp)
      · have hside := (hvalues rightSide (by simp)).trans (holds_side hrightSide)
        exact (ihright hright piece hpiece).within hside (by simp)
      · exact .inr ⟨function, by simp, hcode⟩

/-- A statement that only fills a snippet retains the values of the snippet. -/
theorem retains_snippet {role : Role} {token : Token} {values : List (String × String)}
    {functions : List String}
    (h : (liftM (snippet library role token values) : Rendering String).run' .empty >>=
      (fun text => pure (text, [])) = .ok (text, functions))
    (hkeys : values.map Prod.fst = role.keys) :
    ∀ piece ∈ values.map Prod.snd, Static.Retains text functions piece := by
  obtain ⟨_, hrun, h⟩ := ok_of_bind h
  cases h
  have hsnippet : snippet library role token values = .ok text := by
    rw [← hrun]
    cases snippet library role token values <;> rfl
  intro piece hpiece
  exact .inl (holds_snippet hsnippet hkeys piece hpiece)

/-- A rendered statement retains what the statement says. -/
theorem retains_statement {earlier : List Statement} {st : Statement} {functions : List String}
    (h : Static.statement library earlier st = .ok (text, functions)) :
    ∀ piece ∈ st.said earlier, Static.Retains text functions piece := by
  cases st with
  | assign name input =>
      obtain ⟨⟨inputText, inputFunctions⟩, hinput, h⟩ := ok_of_bind h
      obtain ⟨_, hsnippet, h⟩ := ok_of_bind h
      cases h
      have hvalues := holds_snippet hsnippet rfl
      intro piece hpiece
      rcases List.mem_cons.mp hpiece with rfl | hpiece
      · exact .inl (hvalues _ (by simp [nextVariable]))
      · exact (retains_source hinput piece hpiece).within (hvalues inputText (by simp))
          (List.Subset.refl _)
  | output token input path =>
      obtain ⟨⟨inputText, inputFunctions⟩, hinput, h⟩ := ok_of_bind h
      obtain ⟨_, hsnippet, h⟩ := ok_of_bind h
      cases h
      have hvalues := holds_snippet hsnippet rfl
      intro piece hpiece
      rcases List.mem_cons.mp hpiece with rfl | hpiece
      · exact .inl (hvalues _ (by simp))
      · rcases List.mem_cons.mp hpiece with rfl | hpiece
        · exact .inl (hvalues _ (by simp [quote_eq_quoted]))
        · exact (retains_source hinput piece hpiece).within (hvalues inputText (by simp))
            (List.Subset.refl _)
  | param token typed default? =>
      cases default? with
      | none => exact retains_snippet h rfl
      | some default =>
          rw [Statement.said, Option.map_some, ← value_eq_said]
          exact retains_snippet h rfl
  | importName token name path =>
      obtain ⟨_, hsnippet, h⟩ := ok_of_bind h
      cases h
      intro piece hpiece
      exact .inl (holds_snippet hsnippet rfl piece hpiece)
  | exportName token name =>
      obtain ⟨generated, hreference, h⟩ := ok_of_bind h
      obtain ⟨_, hsnippet, h⟩ := ok_of_bind h
      cases h
      rw [reference_eq_latestVariable hreference] at hsnippet
      intro piece hpiece
      exact .inl (holds_snippet hsnippet rfl piece hpiece)
  | setVariable token name assigned =>
      rw [Statement.said, ← value_eq_said]
      exact retains_snippet h rfl
  | defineVariable typed assigned =>
      rw [Statement.said, ← value_eq_said]
      exact retains_snippet h rfl

/-- Rendered statements retain what the statements say, and the functions that were there before
are still there. -/
theorem retains_statements {context final : Context} {earlier statements : List Statement}
    {texts : List String} (hfollows : context.Follows earlier)
    (h : statements.mapM (statement library) context = .ok (texts, final)) :
    context.conditions ⊆ final.conditions ∧
      ∀ piece ∈ saidAfter earlier statements,
        (∃ rendered ∈ texts, Holds rendered piece) ∨
          ∃ function ∈ final.conditions, Holds function piece := by
  induction statements generalizing context earlier texts with
  | nil =>
      cases h
      exact ⟨List.Subset.refl _, nofun⟩
  | cons st rest ih =>
      rw [List.mapM_cons] at h
      obtain ⟨⟨rendered, middle⟩, hfirst, h⟩ := ok_of_bind h
      obtain ⟨⟨more, last⟩, hrest, h⟩ := ok_of_bind h
      cases h
      obtain ⟨hkept, hsaid⟩ := ih (follows_statement hfollows hfirst) hrest
      rw [does_statement library st hfollows] at hfirst
      cases hstatic : Static.statement library earlier st with
      | error fault =>
          rw [hstatic] at hfirst
          exact nomatch hfirst
      | ok result =>
          obtain ⟨text, functions⟩ := result
          rw [hstatic] at hfirst
          cases hfirst
          obtain ⟨hconditions, hfunctions⟩ := List.append_subset.mp hkept
          refine ⟨hconditions, fun piece hpiece => ?_⟩
          rcases List.mem_append.mp hpiece with hpiece | hpiece
          · rcases retains_statement hstatic piece hpiece with hholds | ⟨function, hmem, hholds⟩
            · exact .inl ⟨_, List.mem_cons_self, hholds⟩
            · exact .inr ⟨function, hfunctions hmem, hholds⟩
          · rcases hsaid piece hpiece with ⟨rendered, hmem, hholds⟩ | hfunction
            · exact .inl ⟨rendered, List.mem_cons_of_mem _ hmem, hholds⟩
            · exact .inr hfunction

/-- The output contains what every statement is rendered as, and every function. -/
theorem holds_finish {token : Token} {texts : List String} {final : Context} {out : String}
    (h : finish library token (texts, final) = .ok out) :
    (∀ text ∈ texts, Holds out text) ∧ ∀ function ∈ final.conditions, Holds out function := by
  have hvalues := holds_snippet h rfl
  refine ⟨fun text htext => ?_, fun function hfunction => ?_⟩
  · exact (hvalues _ (by simp)).trans (.intercalate htext "\n")
  · exact (hvalues _ (by simp)).trans (.intercalate hfunction "\n\n")

end Render

/-- Nothing that a script says is lost or changed by rendering. -/
theorem render_keeps_said (library : Library) (script : Script) (out : String)
    (h : render library script = .ok out) :
    ∀ piece ∈ script.said, piece.toList <:+: out.toList := by
  rw [Render.render_eq] at h
  obtain ⟨⟨texts, final⟩, hstatements, hfinish⟩ := Render.ok_of_bind h
  obtain ⟨htexts, hfunctions⟩ := Render.holds_finish hfinish
  obtain ⟨-, hsaid⟩ := Render.retains_statements .empty hstatements
  intro piece hpiece
  rcases hsaid piece hpiece with ⟨rendered, hmem, hholds⟩ | ⟨function, hmem, hholds⟩
  · exact (htexts rendered hmem).trans hholds
  · exact (hfunctions function hmem).trans hholds

/-- Texts that look like placeholders and like references to groups are kept as they are, also in
the condition of a join. -/
theorem render_keeps_said_placeholders :
    let source := "a = EXTRACT \x7b\x7b __source__ \x7d\x7d AS b FROM \"$1 /*%fieldSpec%*/\"; " ++
      "c = SELECT * FROM a INNER JOIN a AS d ON \x7b\x7b __name__ + '$&' \x7d\x7d;"
    let texts := ["// a\nconst a_0 = sift.extract(\"$1 /*%fieldSpec%*/\", " ++
        "sift.fields([sift.computed(\"b\", (record: sift.Record) => (__source__))], \"1:13\"));",
      "// c\nconst c_0 = sift.select(sift.join(sift.JoinType.Inner, sift.namespace(a_0, \"a\"), " ++
        "sift.namespace(a_0, \"d\"), condition_0), sift.allFields(), );"]
    let functions := ["function condition_0(a: sift.Record, d: sift.Record): boolean \x7b\n" ++
      "    return Boolean(__name__ + '$&');\n\x7d"]
    let out := Render.builtinText texts functions
    ∃ script, readScript source = .ok script ∧ render .builtin script = .ok out ∧
      script.said = ["a_0", "\"$1 /*%fieldSpec%*/\"", "__source__", "\"b\"", "c_0", "a_0", "\"d\"",
        "a_0", "__name__ + '$&'"] ∧
      ∀ piece ∈ script.said, piece.toList <:+: out.toList := by
  intro source texts functions out
  have hcomputed : ((readScript source).toOption.bind fun script =>
      (script.statements.mapM (Render.statement .builtin) .empty).toOption.map fun r =>
        (script.said, r.1, r.2.conditions)) =
      some (["a_0", "\"$1 /*%fieldSpec%*/\"", "__source__", "\"b\"", "c_0", "a_0", "\"d\"", "a_0",
        "__name__ + '$&'"], texts, functions) := by
    decide +kernel
  obtain ⟨script, _, _, hread, -, hvalues, hrender, -⟩ := compile_builtin hcomputed
  simp only [Prod.mk.injEq] at hvalues
  obtain ⟨hsaid, htexts, hfunctions⟩ := hvalues
  rw [htexts, hfunctions] at hrender
  exact ⟨script, hread, hrender, hsaid, render_keeps_said .builtin script out hrender⟩

end RecordFlow
