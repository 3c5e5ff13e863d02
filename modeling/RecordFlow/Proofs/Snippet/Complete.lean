/-
# Complete libraries

Rendering gives the snippet of a role values under keys that depend on the role alone. A library is
complete if it has a snippet for every role, with a placeholder for each of these keys. From such a
library no snippet is ever refused. The library that comes with the program is complete.
-/

import RecordFlow.Render.Basic

namespace RecordFlow

namespace Role

/-- The keys under which the snippet of a role is given its values. -/
def keys : Role → List String
  | script => ["statements", "conditions"]
  | assignment => ["variableName", "source", "name"]
  | fileSource => ["fieldSpec", "filename"]
  | selectQuery => ["fields", "source", "where"]
  | fieldList => ["fields", "position"]
  | star => []
  | output => ["variableName", "source", "fileName"]
  | whereStatement => ["condition"]
  | joinQuery => ["left", "right", "condition", "joinType"]
  | joinCondition => ["name", "left", "right", "condition"]
  | aliasedSource => ["source", "alias"]
  | namedField => ["name", "value"]
  | unnamedField => ["value"]
  | renamedField => ["field", "name"]
  | param => ["name", "type"]
  | paramWithDefault => ["name", "type", "default"]
  | variableDefinition => ["name", "type", "value"]
  | variableAssignment => ["name", "value"]
  | importName => ["variableName", "name", "fileName"]
  | exportName => ["variableName", "name"]

end Role

namespace Library

/-- A library with a snippet for every role, and in it a placeholder for every key of the role. -/
def Complete (library : Library) : Prop :=
  ∀ role : Role, ∃ template, library role.name = .ok template ∧
    ∀ key ∈ role.keys, key ∈ Template.keys template

end Library

/-- A template that has all the keys takes the values. -/
theorem substitute_of_keys {snippet template : String} {values : List (String × String)}
    (h : ∀ value ∈ values, value.1 ∈ Template.keys template) :
    substitute snippet template values = .ok (Template.fill template values) := by
  have hnone : values.find? (fun value => !(Template.keys template).contains value.1) = none := by
    apply List.find?_eq_none.mpr
    intro value hvalue
    simpa using h value hvalue
  rw [substitute, hnone]

/-- A complete library fills the snippet of every role, given values under the keys of the role. -/
theorem Render.snippet_of_complete {library : Library} (h : library.Complete) {role : Role}
    {values : List (String × String)} (hkeys : values.map Prod.fst = role.keys) (token : Token) :
    ∃ text, Render.snippet library role token values = .ok text := by
  obtain ⟨template, htemplate, hmem⟩ := h role
  have hvalues : ∀ value ∈ values, value.1 ∈ Template.keys template := by
    intro value hvalue
    apply hmem
    rw [← hkeys]
    exact List.mem_map_of_mem hvalue
  have hget : library.get role.name values = .ok (Template.fill template values) := by
    rw [Library.get, htemplate]
    exact substitute_of_keys hvalues
  exact ⟨_, by rw [Render.snippet, hget]⟩

/-- The keys of a template are found in its list of characters. -/
theorem Template.mem_keys_of_toList {template : String} {cs : List Char}
    (h : template.toList = cs) {required : List String}
    (hkeys : ∀ key ∈ required, key ∈ (cut cs).filterMap Piece.key?) :
    ∀ key ∈ required, key ∈ keys template := by
  intro key hkey
  rw [keys, h, List.mem_eraseDups]
  exact hkeys key hkey

theorem Template.toList_append_of_eq {first second : String} {cs ds : List Char}
    (hfirst : first.toList = cs) (hsecond : second.toList = ds) :
    (first ++ second).toList = cs ++ ds := by
  rw [String.toList_append, hfirst, hsecond]

/-- Every template that comes with the program has all the keys of its role. -/
theorem Role.template_keys (role : Role) :
    ∀ key ∈ role.keys, key ∈ Template.keys role.template := by
  cases role with
  | script =>
      have hlines : script.template.toList = _ := Template.toList_append_of_eq
        (Template.toList_append_of_eq String.toList_ofList String.toList_ofList)
        String.toList_ofList
      exact Template.mem_keys_of_toList hlines (by decide +kernel)
  | joinCondition =>
      have hlines : joinCondition.template.toList = _ :=
        Template.toList_append_of_eq String.toList_ofList String.toList_ofList
      exact Template.mem_keys_of_toList hlines (by decide +kernel)
  | _ => exact Template.mem_keys_of_toList String.toList_ofList (by decide +kernel)

theorem Library.builtin_complete : Library.builtin.Complete := by
  intro role
  have hbuiltin : Library.builtin role.name = .ok role.template := by cases role <;> rfl
  exact ⟨role.template, hbuiltin, role.template_keys⟩

end RecordFlow
