/-
# The namespaces of a rendered join

The condition of a join sees records under the namespaces of the two sides, which are listed by a
walk over the tree. The records get their namespaces in another way: what is joined is rendered with
one snippet in the end, and where this is the snippet for namespaces, it is filled with an alias.
Rules describe how a join is rendered and keep, for everything that is joined, the snippet that is
filled last. They derive exactly what rendering gives. In whatever they derive, the aliases are the
namespaces of the left side and then those of the right side.
-/

import RecordFlow.Proofs.Render.Conditions

namespace RecordFlow

namespace Source

/-- What a source joins, from left to right: what stands under its joins, or else itself. -/
def leaves : Source → List Source
  | join _ left right _ => left.leaves ++ right.leaves
  | leaf => [leaf]

/-- The alias that something is joined under, in quotes: a name joins under itself, an aliased
source under its alias, and a file or a selection under none. -/
def joinAlias? : Source → Option String
  | named name => some (quoted name.text)
  | aliased _ _ name => some (quoted name.text)
  | _ => none

end Source

namespace Render

variable {α β : Type} {library : Library} {context next : Context} {text : String}

/-- A snippet and the values it is filled with. -/
structure Filling where
  role : Role
  values : List (String × String)

namespace Filling

/-- The snippet of a file. -/
def file (chosen : String) (path : TextLiteral) : Filling :=
  ⟨.fileSource, [("fieldSpec", chosen), ("filename", quoted path.value)]⟩

/-- The snippet of a selection. -/
def select (chosen inner condition : String) : Filling :=
  ⟨.selectQuery, [("fields", chosen), ("source", inner), ("where", condition)]⟩

/-- The snippet that puts a source under a namespace. -/
def aliased (inner : String) (name : Name) : Filling :=
  ⟨.aliasedSource, [("source", inner), ("alias", quoted name.text)]⟩

/-- Fill the snippet. -/
def fill (library : Library) (token : Token) (filling : Filling) : Except RenderError String :=
  snippet library filling.role token filling.values

/-- The alias that the snippet for namespaces is filled with; no other snippet has one. -/
def alias? (filling : Filling) : Option String :=
  if filling.role = .aliasedSource then List.lookup "alias" filling.values else none

end Filling

/-- How a source is rendered that stands in a join: the snippets that are filled last for what it
joins, from left to right, its text, and the state behind it. -/
inductive Joined (library : Library) :
    Source → Context → List Filling → String → Context → Prop
  | file {token : Token} {choice : Fields} {path : TextLiteral} {context : Context}
      {chosen text : String} (hchosen : fields library choice = .ok chosen)
      (htext : (Filling.file chosen path).fill library token = .ok text) :
      Joined library (.file token choice path) context [.file chosen path] text context
  | named {name : Name} {context : Context} {generated text : String}
      (hgenerated : context.resolve? name.text = some generated)
      (htext : (Filling.aliased generated name).fill library name.token = .ok text) :
      Joined library (.named name) context [.aliased generated name] text context
  | select {token : Token} {choice : Fields} {inner : Source} {filter? : Option Filter}
      {context next : Context} {innerText chosen condition text : String}
      (hinner : source library inner context = .ok (innerText, next))
      (hchosen : fields library choice = .ok chosen)
      (hcondition : filter library filter? = .ok condition)
      (htext : (Filling.select chosen innerText condition).fill library token = .ok text) :
      Joined library (.select token choice inner filter?) context
        [.select chosen innerText condition] text next
  | aliased {token : Token} {inner : Source} {name : Name} {context next : Context}
      {innerText text : String} (hinner : source library inner context = .ok (innerText, next))
      (htext : (Filling.aliased innerText name).fill library token = .ok text) :
      Joined library (.aliased token inner name) context [.aliased innerText name] text next
  | join {token : Token} {left right : Source} {condition : Expression}
      {context between behind : Context} {lefts rights : List Filling}
      {leftText rightText function text : String} {type : JoinType}
      (hleft : Joined library left context lefts leftText between)
      (hright : Joined library right between rights rightText behind)
      (htype : joinType token = .ok type) (hdisjoint : left.Disjoint right)
      (hfunction : joinCondition library behind.nextCondition left right condition = .ok function)
      (htext : snippet library .joinQuery token
        [("left", leftText), ("right", rightText), ("condition", behind.nextCondition),
          ("joinType", type.name)] = .ok text) :
      Joined library (.join token left right condition) context (lefts ++ rights) text
        (behind.pushCondition function)

theorem run_bind_of_ok {m : Rendering α} {f : α → Rendering β} {a : α}
    (h : m context = .ok (a, next)) : (m >>= f) context = f a next := by
  change m context >>= (fun r => f r.1 r.2) = _
  rw [h]
  rfl

theorem run_lift_bind_of_ok {e : Except RenderError α} {f : α → Rendering β} {a : α}
    (h : e = .ok a) : (liftM e >>= f) context = f a context := by
  rw [h]
  rfl

theorem run_lift_of_ok {e : Except RenderError α} {a : α} (h : e = .ok a) :
    (liftM e : Rendering α) context = .ok (a, context) := by
  rw [h]
  rfl

theorem run_reference_iff {name : Name} :
    reference name context = .ok (text, next) ↔
      context.resolve? name.text = some text ∧ context = next := by
  unfold reference
  cases context.resolve? name.text <;> simp

theorem checkNamespaces_eq_ok_iff {left right : Source} :
    checkNamespaces left right = .ok () ↔ left.Disjoint right := by
  rw [← Source.sharedNamespace?_eq_none_iff]
  unfold checkNamespaces
  cases left.sharedNamespace? right <;> simp

theorem run_hoist_of_ok {left right : Source} {condition : Expression} {function : String}
    (h : joinCondition library context.nextCondition left right condition = .ok function) :
    hoist library left right condition context =
      .ok (context.nextCondition, context.pushCondition function) := by
  rw [hoist, h]
  rfl

/-! ## The rules and the rendering agree -/

/-- What the rules derive is what the source is rendered as, where it stands in a join. -/
theorem Joined.rendered {s : Source} {fillings : List Filling}
    (h : Joined library s context fillings text next) :
    ∃ rendered, source library s context = .ok (rendered, next) ∧
      side library s rendered = .ok text := by
  induction h with
  | @file _ _ _ _ _ text hchosen htext =>
      refine ⟨text, ?_, rfl⟩
      rw [source, run_lift_bind_of_ok hchosen]
      exact run_lift_of_ok htext
  | @named _ _ generated _ hgenerated htext =>
      exact ⟨generated, run_reference_iff.mpr ⟨hgenerated, rfl⟩, htext⟩
  | @select _ _ _ _ _ _ _ _ _ text hinner hchosen hcondition htext =>
      refine ⟨text, ?_, rfl⟩
      rw [source, run_bind_of_ok hinner, run_lift_bind_of_ok hchosen,
        run_lift_bind_of_ok hcondition]
      exact run_lift_of_ok htext
  | @aliased _ _ _ _ _ _ text hinner htext =>
      refine ⟨text, ?_, rfl⟩
      rw [source, run_bind_of_ok hinner]
      exact run_lift_of_ok htext
  | @join _ _ _ _ _ _ _ _ _ _ _ _ text _ _ _ htype hdisjoint hfunction htext ihleft ihright =>
      obtain ⟨leftText, hleft, hleftSide⟩ := ihleft
      obtain ⟨rightText, hright, hrightSide⟩ := ihright
      refine ⟨text, ?_, rfl⟩
      rw [source, run_bind_of_ok hleft, run_lift_bind_of_ok hleftSide, run_bind_of_ok hright,
        run_lift_bind_of_ok hrightSide, run_lift_bind_of_ok htype,
        run_lift_bind_of_ok (checkNamespaces_eq_ok_iff.mpr hdisjoint),
        run_bind_of_ok (run_hoist_of_ok hfunction)]
      exact run_lift_of_ok htext

/-- The rules derive all that a source is rendered as, where it stands in a join. -/
theorem joined_of_rendered {s : Source} {rendered : String}
    (h : source library s context = .ok (rendered, next))
    (hside : side library s rendered = .ok text) :
    ∃ fillings, Joined library s context fillings text next := by
  induction s generalizing context next rendered text with
  | file token choice path =>
      rw [source] at h
      obtain ⟨chosen, hchosen, h⟩ := run_of_lift_bind h
      obtain ⟨htext, rfl⟩ := run_of_lift h
      cases hside
      exact ⟨_, .file hchosen htext⟩
  | named name =>
      obtain ⟨hgenerated, rfl⟩ := run_reference_iff.mp h
      exact ⟨_, .named hgenerated hside⟩
  | select token choice inner filter? _ =>
      rw [source] at h
      obtain ⟨innerText, _, hinner, h⟩ := run_of_bind h
      obtain ⟨chosen, hchosen, h⟩ := run_of_lift_bind h
      obtain ⟨condition, hcondition, h⟩ := run_of_lift_bind h
      obtain ⟨htext, rfl⟩ := run_of_lift h
      cases hside
      exact ⟨_, .select hinner hchosen hcondition htext⟩
  | aliased token inner name _ =>
      rw [source] at h
      obtain ⟨innerText, _, hinner, h⟩ := run_of_bind h
      obtain ⟨htext, rfl⟩ := run_of_lift h
      cases hside
      exact ⟨_, .aliased hinner htext⟩
  | join token left right condition ihleft ihright =>
      rw [source] at h
      obtain ⟨leftText, between, hleft, h⟩ := run_of_bind h
      obtain ⟨leftSide, hleftSide, h⟩ := run_of_lift_bind h
      obtain ⟨rightText, behind, hright, h⟩ := run_of_bind h
      obtain ⟨rightSide, hrightSide, h⟩ := run_of_lift_bind h
      obtain ⟨type, htype, h⟩ := run_of_lift_bind h
      obtain ⟨_, hcheck, h⟩ := run_of_lift_bind h
      obtain ⟨_, _, hhoist, h⟩ := run_of_bind h
      obtain ⟨rfl, function, hfunction, rfl⟩ := run_of_hoist hhoist
      obtain ⟨htext, rfl⟩ := run_of_lift h
      cases hside
      obtain ⟨lefts, hlefts⟩ := ihleft hleft hleftSide
      obtain ⟨rights, hrights⟩ := ihright hright hrightSide
      exact ⟨lefts ++ rights, .join hlefts hrights htype (checkNamespaces_eq_ok_iff.mp hcheck)
        hfunction htext⟩

/-- What is joined is put under its alias. -/
theorem Joined.map_alias? {s : Source} {fillings : List Filling}
    (h : Joined library s context fillings text next) :
    fillings.map Filling.alias? = s.leaves.map Source.joinAlias? := by
  induction h with
  | file _ _ => rfl
  | named _ _ => rfl
  | select _ _ _ _ => rfl
  | aliased _ _ => rfl
  | join _ _ _ _ _ _ ihleft ihright =>
      rw [List.map_append, ihleft, ihright, Source.leaves, List.map_append]

end Render

/-- The namespaces of a source are the names that what it joins is put under. -/
theorem Source.filterMap_joinAlias? (s : Source) :
    s.leaves.filterMap joinAlias? = s.namespaces.map fun name => quoted name.text := by
  induction s with
  | file token choice path => rfl
  | named name => rfl
  | select token choice inner filter? _ => rfl
  | aliased token inner name _ => rfl
  | join token left right condition ihleft ihright =>
      rw [leaves, List.filterMap_append, ihleft, ihright, namespaces, List.map_append]

/-- What a join is rendered as is what the rules for joins derive. Whatever they derive, everything
that the join joins is put under its own alias, and these aliases are the namespaces of the left
side, in quotes, followed by those of the right side. -/
theorem join_leaves_rendered_under_namespaces (library : Library) (join : Join)
    (context next : Context) (text : String) :
    (Render.source library join.source context = .ok (text, next) ↔
      ∃ fillings, Render.Joined library join.source context fillings text next) ∧
    ∀ fillings, Render.Joined library join.source context fillings text next →
      fillings.map Render.Filling.alias? = join.source.leaves.map Source.joinAlias? ∧
      fillings.filterMap Render.Filling.alias? =
        (join.left.namespaces ++ join.right.namespaces).map fun name => quoted name.text := by
  refine ⟨⟨fun h => Render.joined_of_rendered h rfl, ?_⟩, fun fillings h => ?_⟩
  · rintro ⟨fillings, h⟩
    obtain ⟨rendered, hrendered, hside⟩ := h.rendered
    cases hside
    exact hrendered
  · have haliases := h.map_alias?
    refine ⟨haliases, ?_⟩
    calc fillings.filterMap Render.Filling.alias?
        = (fillings.map Render.Filling.alias?).filterMap id := by
          rw [List.filterMap_map, Function.id_comp]
      _ = (join.source.leaves.map Source.joinAlias?).filterMap id := by rw [haliases]
      _ = join.source.leaves.filterMap Source.joinAlias? := by
          rw [List.filterMap_map, Function.id_comp]
      _ = (join.left.namespaces ++ join.right.namespaces).map fun name => quoted name.text :=
          join.source.filterMap_joinAlias?

/-- A join of a join and a selection, which has no namespace. -/
theorem join_leaves_rendered_under_namespaces_nested :
    let source := "a = EXTRACT * FROM \"f\"; " ++
      "b = SELECT * FROM a INNER JOIN a AS c ON \x7b\x7bx\x7d\x7d " ++
        "LEFT JOIN (SELECT * FROM a) ON \x7b\x7bz\x7d\x7d;"
    let text := "sift.join(sift.JoinType.Left, " ++
      "sift.join(sift.JoinType.Inner, sift.namespace(a_0, \"a\"), sift.namespace(a_0, \"c\"), " ++
        "condition_0), sift.select(a_0, sift.allFields(), ), condition_1)"
    ∃ script join next fillings, readScript source = .ok script ∧
      script.joinNodes[1]? = some join ∧
      Render.source .builtin join.source ⟨["a"], [], 0⟩ = .ok (text, next) ∧
      Render.Joined .builtin join.source ⟨["a"], [], 0⟩ fillings text next ∧
      fillings.map Render.Filling.alias? = [some "\"a\"", some "\"c\"", none] ∧
      fillings.filterMap Render.Filling.alias? = ["\"a\"", "\"c\""] := by
  intro source text
  have hcomputed : ((readScript source).toOption.bind fun script =>
      script.joinNodes[1]?.bind fun join =>
        (Render.source .builtin join.source ⟨["a"], [], 0⟩).toOption.map fun r =>
          (r.1, join.source.leaves.map Source.joinAlias?,
            (join.left.namespaces ++ join.right.namespaces).map fun name => quoted name.text)) =
      some (text, [some "\"a\"", some "\"c\"", none], ["\"a\"", "\"c\""]) := by
    decide +kernel
  obtain ⟨script, hread, hjoin⟩ := Option.bind_eq_some_iff.mp hcomputed
  obtain ⟨join, hjoin, hrun⟩ := Option.bind_eq_some_iff.mp hjoin
  obtain ⟨⟨_, next⟩, hrun, hvalues⟩ := Option.map_eq_some_iff.mp hrun
  simp only [Prod.mk.injEq] at hvalues
  obtain ⟨rfl, haliases, hnamespaces⟩ := hvalues
  have hrun := ok_of_toOption hrun
  obtain ⟨hrendered, hfilled⟩ := join_leaves_rendered_under_namespaces .builtin join _ next text
  obtain ⟨fillings, hjoined⟩ := hrendered.mp hrun
  obtain ⟨hmap, hfilterMap⟩ := hfilled fillings hjoined
  exact ⟨script, join, next, fillings, ok_of_toOption hread, hjoin, hrun, hjoined,
    hmap.trans haliases, hfilterMap.trans hnamespaces⟩

end RecordFlow
