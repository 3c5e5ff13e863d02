/-
# Join conditions and their joins

Rendering moves the condition of every join to a function of its own. The function is numbered by
those before it, after both sides of the join are rendered, and the join's own snippet refers to it
by this number. So the functions are those of the joins in one fixed order, statement by statement
and in a source a left side before its right side before the join itself, and each join refers to
its own function. Joins may nest on either side, and the state of the rendering is threaded through
all of them; a visit is a join together with the state in which its rendering begins.
-/

import RecordFlow.Proofs.Render.Kept

namespace RecordFlow

open Text (Holds)

/-- The parts of a join. -/
structure Join where
  token : Token
  left : Source
  right : Source
  condition : Expression

/-- The join as a source. -/
def Join.source (join : Join) : Source := .join join.token join.left join.right join.condition

/-- The joins of a source, at any depth: those of a left side, those of the right side, and then the
join of the two. -/
def Source.joinNodes : Source → List Join
  | file _ _ _ => []
  | named _ => []
  | select _ _ inner _ => inner.joinNodes
  | aliased _ inner _ => inner.joinNodes
  | join token left right condition =>
      left.joinNodes ++ right.joinNodes ++ [⟨token, left, right, condition⟩]

/-- The joins of the source of a statement, if it has one. -/
def Statement.joinNodes (statement : Statement) : List Join :=
  (statement.source?.map Source.joinNodes).getD []

/-- The joins of a script, statement by statement. -/
def Script.joinNodes (script : Script) : List Join :=
  script.statements.flatMap Statement.joinNodes

/-- A join and the state in which its rendering begins. -/
structure Visit where
  join : Join
  context : Context

namespace Render

variable {α β : Type} {library : Library} {context next : Context} {text : String}

/-- The state in which a rendering ends, or in which it began if it stops. -/
def ending (m : Rendering α) (context : Context) : Context :=
  match m context with
  | .ok (_, next) => next
  | .error _ => context

theorem ending_of_ok {m : Rendering α} {a : α} (h : m context = .ok (a, next)) :
    ending m context = next := by
  rw [ending, h]

/-- The visits of a source whose rendering begins in the state `context`. -/
def sourceVisits (library : Library) : Source → (context : Context) → List Visit
  | .file _ _ _, _ => []
  | .named _, _ => []
  | .select _ _ inner _, context => sourceVisits library inner context
  | .aliased _ inner _, context => sourceVisits library inner context
  | .join token left right condition, context =>
      sourceVisits library left context ++
        sourceVisits library right (ending (source library left) context) ++
          [⟨⟨token, left, right, condition⟩, context⟩]

/-- The visits of a statement whose rendering begins in the state `context`. -/
def statementVisits (library : Library) (st : Statement) (context : Context) : List Visit :=
  (st.source?.map fun s => sourceVisits library s context).getD []

/-- The visits of statements, each of which begins in the state in which the one before ends. -/
def statementsVisits (library : Library) : List Statement → (context : Context) → List Visit
  | [], _ => []
  | st :: rest, context =>
      statementVisits library st context ++
        statementsVisits library rest (ending (statement library st) context)

theorem join_sourceVisits (s : Source) (context : Context) :
    (sourceVisits library s context).map Visit.join = s.joinNodes := by
  induction s generalizing context with
  | file token choice path => rfl
  | named name => rfl
  | select token choice inner filter? ih => exact ih context
  | aliased token inner name ih => exact ih context
  | join token left right condition ihleft ihright =>
      simp [sourceVisits, Source.joinNodes, ihleft, ihright]

/-- Every join is visited once. -/
theorem join_statementsVisits (library : Library) (statements : List Statement)
    (context : Context) :
    (statementsVisits library statements context).map Visit.join =
      statements.flatMap Statement.joinNodes := by
  induction statements generalizing context with
  | nil => rfl
  | cons st rest ih =>
      rw [statementsVisits, List.map_append, ih, List.flatMap_cons, Statement.joinNodes,
        statementVisits]
      cases st.source? with
      | none => rfl
      | some s => simp [join_sourceVisits]

/-! ## How a join is rendered -/

/-- The rendering of a join: its two sides, the function of its condition under the given number,
and its own snippet, which refers to the function by the same number. -/
def Wired (library : Library) (number : Nat) (visit : Visit) (function text : String) : Prop :=
  ∃ leftText leftSide between rightText rightSide behind type,
    source library visit.join.left visit.context = .ok (leftText, between) ∧
    side library visit.join.left leftText = .ok leftSide ∧
    source library visit.join.right between = .ok (rightText, behind) ∧
    side library visit.join.right rightText = .ok rightSide ∧
    joinType visit.join.token = .ok type ∧
    snippet library .joinCondition visit.join.condition.token
      [("name", numbered "condition" number), ("left", visit.join.left.parameter "left"),
        ("right", visit.join.right.parameter "right"),
        ("condition", visit.join.condition.code)] = .ok function ∧
    snippet library .joinQuery visit.join.token
      [("left", leftSide), ("right", rightSide), ("condition", numbered "condition" number),
        ("joinType", type.name)] = .ok text ∧
    source library visit.join.source visit.context = .ok (text, behind.pushCondition function)

/-- Visits and functions belong together one by one, numbered from `number` on, and the text
contains what each of the joins is rendered as. -/
inductive WiredFrom (library : Library) (text : String) : Nat → List Visit → List String → Prop
  | nil {number : Nat} : WiredFrom library text number [] []
  | cons {number : Nat} {visit : Visit} {visits : List Visit} {function piece : String}
      {functions : List String} (hwired : Wired library number visit function piece)
      (hholds : Holds text piece) (hrest : WiredFrom library text (number + 1) visits functions) :
      WiredFrom library text number (visit :: visits) (function :: functions)

namespace WiredFrom

variable {number : Nat} {visits others : List Visit} {functions more : List String}

theorem length_eq (h : WiredFrom library text number visits functions) :
    functions.length = visits.length := by
  induction h with
  | nil => rfl
  | cons _ _ _ ih => rw [List.length_cons, List.length_cons, ih]

/-- What a text contains is contained in every text around it. -/
theorem within {outer : String} (h : WiredFrom library text number visits functions)
    (houter : Holds outer text) : WiredFrom library outer number visits functions := by
  induction h with
  | nil => exact .nil
  | cons hwired hholds _ ih => exact .cons hwired (houter.trans hholds) ih

theorem append (h : WiredFrom library text number visits functions)
    (hmore : WiredFrom library text (number + functions.length) others more) :
    WiredFrom library text number (visits ++ others) (functions ++ more) := by
  induction h with
  | nil => exact hmore
  | cons hwired hholds _ ih =>
      rw [List.length_cons, ← Nat.add_assoc, Nat.add_right_comm] at hmore
      exact .cons hwired hholds (ih hmore)

theorem getElem? (h : WiredFrom library text number visits functions) {j : Nat} {visit : Visit}
    (hvisit : visits[j]? = some visit) :
    ∃ function piece, functions[j]? = some function ∧
      Wired library (number + j) visit function piece ∧ Holds text piece := by
  induction h generalizing j with
  | nil => exact nomatch hvisit
  | @cons number first visits function piece functions hwired hholds _ ih =>
      cases j with
      | zero =>
          cases hvisit
          exact ⟨function, piece, rfl, hwired, hholds⟩
      | succ j =>
          have hnumber : number + (j + 1) = number + 1 + j := by omega
          rw [hnumber]
          exact ih hvisit

end WiredFrom

theorem length_hoisting (context : Context) (functions : List String) :
    (context.hoisting functions).conditions.length =
      context.conditions.length + functions.length :=
  List.length_append

theorem run_of_reference {name : Name} (h : reference name context = .ok (text, next)) :
    next = context := by
  unfold reference at h
  split at h
  · cases h
    rfl
  · exact nomatch h

/-- A condition is moved out under the number of functions that are already there. -/
theorem run_of_hoist {left right : Source} {condition : Expression} {name : String}
    (h : hoist library left right condition context = .ok (name, next)) :
    name = numbered "condition" context.conditions.length ∧
      ∃ function, joinCondition library name left right condition = .ok function ∧
        next = context.pushCondition function := by
  obtain ⟨function, hfunction, hpure⟩ := ok_of_bind h
  cases hpure
  exact ⟨rfl, function, hfunction, rfl⟩

/-- A source adds one function for each of its joins, and each join refers to its own. -/
theorem wired_source {s : Source} (h : source library s context = .ok (text, next)) :
    ∃ functions, next = context.hoisting functions ∧
      WiredFrom library text context.conditions.length (sourceVisits library s context)
        functions := by
  induction s generalizing context next text with
  | file token choice path =>
      rw [source] at h
      obtain ⟨_, -, h⟩ := run_of_lift_bind h
      obtain ⟨-, rfl⟩ := run_of_lift h
      exact ⟨[], (hoisting_nil _).symm, .nil⟩
  | named name => exact ⟨[], (run_of_reference h).trans (hoisting_nil _).symm, .nil⟩
  | select token choice inner filter? ih =>
      rw [source] at h
      obtain ⟨innerText, _, hinner, h⟩ := run_of_bind h
      obtain ⟨_, -, h⟩ := run_of_lift_bind h
      obtain ⟨_, -, h⟩ := run_of_lift_bind h
      obtain ⟨hsnippet, rfl⟩ := run_of_lift h
      obtain ⟨functions, rfl, hwired⟩ := ih hinner
      exact ⟨functions, rfl, hwired.within (holds_snippet hsnippet rfl innerText (by simp))⟩
  | aliased token inner name ih =>
      rw [source] at h
      obtain ⟨innerText, _, hinner, h⟩ := run_of_bind h
      obtain ⟨hsnippet, rfl⟩ := run_of_lift h
      obtain ⟨functions, rfl, hwired⟩ := ih hinner
      exact ⟨functions, rfl, hwired.within (holds_snippet hsnippet rfl innerText (by simp))⟩
  | join token left right condition ihleft ihright =>
      have hrun := h
      rw [source] at h
      obtain ⟨leftText, between, hleft, h⟩ := run_of_bind h
      obtain ⟨leftSide, hleftSide, h⟩ := run_of_lift_bind h
      obtain ⟨rightText, behind, hright, h⟩ := run_of_bind h
      obtain ⟨rightSide, hrightSide, h⟩ := run_of_lift_bind h
      obtain ⟨type, htype, h⟩ := run_of_lift_bind h
      obtain ⟨_, -, h⟩ := run_of_lift_bind h
      obtain ⟨_, _, hhoist, h⟩ := run_of_bind h
      obtain ⟨rfl, function, hfunction, rfl⟩ := run_of_hoist hhoist
      obtain ⟨hsnippet, rfl⟩ := run_of_lift h
      have hself : Wired library behind.conditions.length
          ⟨⟨token, left, right, condition⟩, context⟩ function text :=
        ⟨leftText, leftSide, between, rightText, rightSide, behind, type, hleft, hleftSide, hright,
          hrightSide, htype, hfunction, hsnippet, hrun⟩
      have hvalues := holds_snippet hsnippet rfl
      have hholdsLeft := (hvalues leftSide (by simp)).trans (holds_side hleftSide)
      have hholdsRight := (hvalues rightSide (by simp)).trans (holds_side hrightSide)
      obtain ⟨leftFunctions, rfl, hwiredLeft⟩ := ihleft hleft
      obtain ⟨rightFunctions, rfl, hwiredRight⟩ := ihright hright
      refine ⟨leftFunctions ++ rightFunctions ++ [function], ?_, ?_⟩
      · simp [Context.hoisting, Context.pushCondition]
      · rw [sourceVisits, ending_of_ok hleft]
        refine .append (.append (hwiredLeft.within hholdsLeft) ?_) ?_
        · rw [← length_hoisting]
          exact hwiredRight.within hholdsRight
        · rw [List.length_append, ← Nat.add_assoc, ← length_hoisting, ← length_hoisting]
          exact .cons hself (.refl text) .nil

/-- A snippet without a source adds no functions. -/
theorem wired_snippet {e : Except RenderError String} {start : Context}
    (hstart : start.conditions = context.conditions)
    (h : (liftM e : Rendering String) start = .ok (text, next)) :
    ∃ functions, next.conditions = context.conditions ++ functions ∧
      WiredFrom library text context.conditions.length [] functions := by
  obtain ⟨-, rfl⟩ := run_of_lift h
  exact ⟨[], hstart.trans (List.append_nil _).symm, .nil⟩

/-- A statement adds the functions of its source. -/
theorem wired_statement {st : Statement} (h : statement library st context = .ok (text, next)) :
    ∃ functions, next.conditions = context.conditions ++ functions ∧
      WiredFrom library text context.conditions.length (statementVisits library st context)
        functions := by
  cases st with
  | assign name input =>
      rw [statement] at h
      obtain ⟨inputText, _, hinput, h⟩ := run_of_bind h
      obtain ⟨_, _, hbind, h⟩ := run_of_bind h
      obtain ⟨hsnippet, rfl⟩ := run_of_lift h
      obtain ⟨functions, rfl, hwired⟩ := wired_source hinput
      cases hbind
      exact ⟨functions, rfl, hwired.within (holds_snippet hsnippet rfl inputText (by simp))⟩
  | output token input path =>
      rw [statement] at h
      obtain ⟨inputText, _, hinput, h⟩ := run_of_bind h
      obtain ⟨_, _, houtput, h⟩ := run_of_bind h
      obtain ⟨hsnippet, rfl⟩ := run_of_lift h
      obtain ⟨functions, rfl, hwired⟩ := wired_source hinput
      cases houtput
      exact ⟨functions, rfl, hwired.within (holds_snippet hsnippet rfl inputText (by simp))⟩
  | param token typed default? =>
      cases default? with
      | none => exact wired_snippet rfl h
      | some default => exact wired_snippet rfl h
  | importName token name path =>
      rw [statement] at h
      obtain ⟨_, between, hbind, h⟩ := run_of_bind h
      have hconditions : between.conditions = context.conditions := by
        cases hbind
        rfl
      exact wired_snippet hconditions h
  | exportName token name =>
      rw [statement] at h
      obtain ⟨_, _, hreference, h⟩ := run_of_bind h
      exact wired_snippet (congrArg Context.conditions (run_of_reference hreference)) h
  | setVariable token name assigned => exact wired_snippet rfl h
  | defineVariable typed assigned => exact wired_snippet rfl h

/-- Statements add the functions of each of them, one statement after the other. -/
theorem wired_statements {statements : List Statement} {texts : List String} {out : String}
    (h : statements.mapM (statement library) context = .ok (texts, next))
    (hout : ∀ text ∈ texts, Holds out text) :
    ∃ functions, next.conditions = context.conditions ++ functions ∧
      WiredFrom library out context.conditions.length (statementsVisits library statements context)
        functions := by
  induction statements generalizing context texts with
  | nil =>
      cases h
      exact ⟨[], (List.append_nil _).symm, .nil⟩
  | cons st rest ih =>
      rw [List.mapM_cons] at h
      obtain ⟨text, between, hfirst, h⟩ := run_of_bind h
      obtain ⟨more, _, hrest, h⟩ := run_of_bind h
      cases h
      obtain ⟨hholds, hothers⟩ := List.forall_mem_cons.mp hout
      obtain ⟨functions, hconditions, hwired⟩ := wired_statement hfirst
      obtain ⟨others, hfinal, hwiredRest⟩ := ih hrest hothers
      refine ⟨functions ++ others, ?_, ?_⟩
      · rw [hfinal, hconditions, List.append_assoc]
      · rw [statementsVisits, ending_of_ok hfirst]
        rw [hconditions, List.length_append] at hwiredRest
        exact (hwired.within hholds).append hwiredRest

end Render

/-- Where a script is rendered, its joins are visited once each, statement by statement and in a
source a left side before its right side before the join itself. There are as many functions of join
conditions as joins. The function with the number `j` is that of the join visited with this number,
and that join is rendered with a reference to the function, in a text that stands in the output. -/
theorem join_conditions_wired (library : Library) (script : Script) (out : String)
    (h : render library script = .ok out) :
    ∃ texts final,
      script.statements.mapM (Render.statement library) .empty = .ok (texts, final) ∧
      Render.snippet library .script script.token
        [("statements", "\n".intercalate texts),
          ("conditions", "\n\n".intercalate final.conditions)] = .ok out ∧
      (Render.statementsVisits library script.statements .empty).map Visit.join =
        script.joinNodes ∧
      final.conditions.length = script.joinNodes.length ∧
      ∀ j visit, (Render.statementsVisits library script.statements .empty)[j]? = some visit →
        ∃ function text, final.conditions[j]? = some function ∧
          Render.Wired library j visit function text ∧ text.toList <:+: out.toList := by
  rw [Render.render_eq] at h
  obtain ⟨⟨texts, final⟩, hstatements, hfinish⟩ := Render.ok_of_bind h
  have hjoins := Render.join_statementsVisits library script.statements .empty
  obtain ⟨hout, -⟩ := Render.holds_finish hfinish
  obtain ⟨functions, hconditions, hwired⟩ := Render.wired_statements hstatements hout
  have hfinal : final.conditions = functions := hconditions
  refine ⟨texts, final, hstatements, hfinish, hjoins, ?_, ?_⟩
  · rw [hfinal, hwired.length_eq, Script.joinNodes, ← hjoins, List.length_map]
  · intro j visit hvisit
    obtain ⟨function, text, hfunction, hself, hholds⟩ := hwired.getElem? hvisit
    have hnumber : Context.empty.conditions.length + j = j := Nat.zero_add j
    rw [hnumber] at hself
    exact ⟨function, text, hfinal ▸ hfunction, hself, hholds⟩

/-- Joins on both sides of a join, one of them inside a selection, and one in another statement. -/
theorem join_conditions_wired_nested :
    let source := "a = EXTRACT * FROM \"f\"; " ++
      "b = SELECT * FROM a INNER JOIN a AS c ON \x7b\x7bx\x7d\x7d " ++
        "LEFT JOIN (SELECT * FROM a AS d RIGHT JOIN a AS e ON \x7b\x7by\x7d\x7d) AS g " ++
        "ON \x7b\x7bz\x7d\x7d; " ++
      "OUTPUT SELECT * FROM a OUTER JOIN b ON \x7b\x7bw\x7d\x7d TO \"o\";"
    let functions := [
      "function condition_0(a: sift.Record, c: sift.Record): boolean \x7b\n" ++
        "    return Boolean(x);\n\x7d",
      "function condition_1(d: sift.Record, e: sift.Record): boolean \x7b\n" ++
        "    return Boolean(y);\n\x7d",
      "function condition_2(\x7b a, c \x7d: sift.Record, g: sift.Record): boolean \x7b\n" ++
        "    return Boolean(z);\n\x7d",
      "function condition_3(a: sift.Record, b: sift.Record): boolean \x7b\n" ++
        "    return Boolean(w);\n\x7d"]
    ∃ script texts final out, readScript source = .ok script ∧
      script.joinNodes.map (·.condition.code) = ["x", "y", "z", "w"] ∧
      script.statements.mapM (Render.statement .builtin) .empty = .ok (texts, final) ∧
      texts.getLast? = some ("const output_0 = sift.output(sift.select(" ++
        "sift.join(sift.JoinType.Outer, sift.namespace(a_0, \"a\"), sift.namespace(b_0, \"b\"), " ++
        "condition_3), sift.allFields(), ), \"o\");") ∧
      final.conditions = functions ∧ render .builtin script = .ok out ∧
      out = Render.builtinText texts functions ∧
      ∀ j visit, (Render.statementsVisits .builtin script.statements .empty)[j]? = some visit →
        ∃ function text, functions[j]? = some function ∧
          Render.Wired .builtin j visit function text ∧ text.toList <:+: out.toList := by
  intro source functions
  have hcomputed : ((readScript source).toOption.bind fun script =>
      (script.statements.mapM (Render.statement .builtin) .empty).toOption.map fun r =>
        (script.joinNodes.map (·.condition.code), r.1.getLast?, r.2.conditions)) =
      some (["x", "y", "z", "w"], some ("const output_0 = sift.output(sift.select(" ++
        "sift.join(sift.JoinType.Outer, sift.namespace(a_0, \"a\"), sift.namespace(b_0, \"b\"), " ++
        "condition_3), sift.allFields(), ), \"o\");"), functions) := by
    decide +kernel
  obtain ⟨script, texts, final, hread, hrun, hvalues, hrender, -⟩ := compile_builtin hcomputed
  simp only [Prod.mk.injEq] at hvalues
  obtain ⟨hcodes, hlast, hfunctions⟩ := hvalues
  obtain ⟨_, _, hagain, -, -, -, hwired⟩ := join_conditions_wired .builtin script _ hrender
  cases hrun.symm.trans hagain
  rw [hfunctions] at hrender hwired
  exact ⟨script, texts, final, _, hread, hcodes, hrun, hlast, hfunctions, hrender, rfl, hwired⟩

end RecordFlow
