/-
# Names are fixed by what stands before them

Rendering threads a state through a script, and the state changes at different points of the walk:
a join moves its condition out behind both of its sides, and a statement binds its name or counts
its output behind its source. Here the same texts are computed without a state. Every number is
counted from the script itself: a reference looks at the statements strictly before its own, and a
condition at the joins before its own join. Both computations are shown to agree, errors included,
whenever the state counts what has been rendered, and every rendering that starts from nothing is
in such a state.
-/

import RecordFlow.Proofs.Render.Run
import RecordFlow.Proofs.Script.Scope

namespace RecordFlow

/-- The number of joins in a source, at any depth. -/
def Source.joinCount : Source → Nat
  | file _ _ _ => 0
  | named _ => 0
  | select _ _ source _ => source.joinCount
  | aliased _ source _ => source.joinCount
  | join _ left right _ => left.joinCount + right.joinCount + 1

namespace Statement

/-- The number of joins in the source of a statement, if it has one. -/
def joinCount (statement : Statement) : Nat := (statement.source?.map Source.joinCount).getD 0

/-- Whether a statement writes a source to a file. -/
def isOutput : Statement → Bool
  | output _ _ _ => true
  | _ => false

end Statement

/-- The number of statements that bind a name. -/
def bindingCount (name : String) (statements : List Statement) : Nat :=
  statements.countP fun statement => name ∈ statement.bindings

/-- The number of outputs. -/
def outputCount (statements : List Statement) : Nat := statements.countP Statement.isOutput

/-- The number of joins. -/
def joinCount (statements : List Statement) : Nat :=
  statements.foldl (fun n statement => n + statement.joinCount) 0

/-- No statement binds a name twice, so the statements that bind it and its bindings are as many. -/
theorem count_bindings (name : String) (statement : Statement) :
    statement.bindings.count name = if name ∈ statement.bindings then 1 else 0 := by
  have hnodup : statement.bindings.length ≤ 1 := by cases statement <;> simp [Statement.bindings]
  match hbindings : statement.bindings with
  | [] => simp
  | [bound] => simp [List.count_singleton, eq_comm (a := name)]
  | _ :: _ :: _ => simp [hbindings] at hnodup

theorem count_flatMap_bindings (name : String) (statements : List Statement) :
    (statements.flatMap Statement.bindings).count name = bindingCount name statements := by
  induction statements with
  | nil => rfl
  | cons statement rest ih =>
      rw [List.flatMap_cons, List.count_append, ih, count_bindings, bindingCount, bindingCount,
        List.countP_cons, Nat.add_comm]
      simp only [decide_eq_true_eq]

/-! ## Rendering without a state -/

namespace Render.Static

/-- The variable that a name refers to behind the statements `earlier`: that of the latest among
them that binds the name. -/
def reference (earlier : List Statement) (name : Name) : Except RenderError String :=
  match bindingCount name.text earlier with
  | 0 => .error ⟨.unresolved name.text, name.token.position⟩
  | k + 1 => .ok (numbered name.text k)

/-- A source behind the statements `earlier` and behind `joins` joins: its text, and the functions
of its own join conditions. -/
def source (library : Library) (earlier : List Statement) :
    Source → (joins : Nat) → Except RenderError (String × List String)
  | .file token choice path, _ => do
      let choice ← fields library choice
      let text ← snippet library .fileSource token
        [("fieldSpec", choice), ("filename", quote path.value)]
      return (text, [])
  | .named name, _ => do
      let text ← reference earlier name
      return (text, [])
  | .select token choice inner filter?, joins => do
      let (inner, functions) ← source library earlier inner joins
      let choice ← fields library choice
      let condition ← filter library filter?
      let text ← snippet library .selectQuery token
        [("fields", choice), ("source", inner), ("where", condition)]
      return (text, functions)
  | .aliased token inner name, joins => do
      let (inner, functions) ← source library earlier inner joins
      let text ← namespaced library token inner name
      return (text, functions)
  | .join token left right condition, joins => do
      let (leftText, leftFunctions) ← source library earlier left joins
      let leftText ← side library left leftText
      let (rightText, rightFunctions) ← source library earlier right (joins + left.joinCount)
      let rightText ← side library right rightText
      let type ← joinType token
      checkNamespaces left right
      let name := numbered "condition" (joins + left.joinCount + right.joinCount)
      let function ← joinCondition library name left right condition
      let text ← snippet library .joinQuery token
        [("left", leftText), ("right", rightText), ("condition", name), ("joinType", type.name)]
      return (text, leftFunctions ++ rightFunctions ++ [function])

/-- A statement behind the statements `earlier`: its text, and the functions of its join
conditions. What a statement binds is numbered by `earlier` alone, as its source is. -/
def statement (library : Library) (earlier : List Statement) :
    Statement → Except RenderError (String × List String)
  | .assign name input => do
      let (text, functions) ← source library earlier input (joinCount earlier)
      let text ← snippet library .assignment name.token
        [("variableName", numbered name.text (bindingCount name.text earlier)), ("source", text),
          ("name", name.text)]
      return (text, functions)
  | .output token input path => do
      let (text, functions) ← source library earlier input (joinCount earlier)
      let text ← snippet library .output token
        [("variableName", numbered "output" (outputCount earlier)), ("source", text),
          ("fileName", quote path.value)]
      return (text, functions)
  | .importName token name path => do
      let text ← snippet library .importName token
        [("variableName", numbered name.text (bindingCount name.text earlier)),
          ("name", name.text), ("fileName", quote path.value)]
      return (text, [])
  | .exportName token name => do
      let generated ← reference earlier name
      let text ← snippet library .exportName token
        [("variableName", generated), ("name", name.text)]
      return (text, [])
  -- what is left neither binds a name nor refers to one
  | other => do
      let text ← (Render.statement library other).run' .empty
      return (text, [])

end Render.Static

/-! ## The two agree -/

/-- The state with more functions of join conditions. -/
def Context.hoisting (context : Context) (functions : List String) : Context :=
  { context with conditions := context.conditions ++ functions }

/-- The state behind a statement that was rendered with these functions of join conditions. -/
def Context.behind (context : Context) (statement : Statement) (functions : List String) :
    Context where
  bound := context.bound ++ statement.bindings
  conditions := context.conditions ++ functions
  outputs := context.outputs + if statement.isOutput then 1 else 0

namespace Render

variable {α β : Type}

/-- A rendering that does in the state `start` what `e` says: it stops with the error of `e`, or it
gives the value of `e` and ends in the state that `finish` makes of the functions. -/
def Does (m : Rendering α) (start : Context) (finish : List String → Context)
    (e : Except RenderError (α × List String)) : Prop :=
  m start = e.map fun r => (r.1, finish r.2)

section Steps

variable {m : Rendering α} {f : α → Rendering β} {start : Context} {finish : List String → Context}

theorem bind_congr {m' : Rendering α} (h : m start = m' start) :
    (m >>= f) start = (m' >>= f) start :=
  congrArg (fun e : Except RenderError (α × Context) => e >>= fun r => f r.1 r.2) h

theorem does_bind {e : Except RenderError (α × List String)}
    {g : α × List String → Except RenderError (β × List String)}
    (hm : Does m start start.hoisting e)
    (hf : ∀ a functions, e = .ok (a, functions) →
      Does (f a) (start.hoisting functions) finish (g (a, functions))) :
    Does (m >>= f) start finish (e >>= g) := by
  have hstep : (m >>= f) start = m start >>= fun r => f r.1 r.2 := rfl
  cases e with
  | error fault => rw [Does, hstep, hm]; rfl
  | ok r => rw [Does, hstep, hm]; exact hf r.1 r.2 rfl

/-- A step that leaves the state alone is the same step on both sides. -/
theorem does_lift_bind {e : Except RenderError α}
    {g : α → Except RenderError (β × List String)}
    (hf : ∀ a, Does (f a) start finish (g a)) : Does (liftM e >>= f) start finish (e >>= g) := by
  cases e with
  | error fault => rfl
  | ok a => exact hf a

/-- The last step of a rendering fills a snippet. -/
theorem does_lift {e : Except RenderError α} {functions : List String}
    (h : finish functions = start) :
    Does (liftM e) start finish (e >>= fun a => pure (a, functions)) := by
  subst h
  cases e with
  | error fault => rfl
  | ok a => rfl

end Steps

theorem hoisting_nil (context : Context) : context.hoisting [] = context := by
  simp [Context.hoisting]

/-- In a state that has the bindings of `earlier`, a reference reads nothing else of the state. -/
theorem reference_eq_static {earlier : List Statement} {context : Context} {name : Name}
    (h : context.count name.text = bindingCount name.text earlier) :
    reference name context =
      (liftM (Static.reference earlier name) : Rendering String) context := by
  rw [reference, Context.resolve?, Static.reference, h]
  cases bindingCount name.text earlier with
  | zero => rfl
  | succ k => rfl

/-- A result that comes with `n` functions of join conditions, if it is no error. -/
def Static.Hoists (n : Nat) (e : Except RenderError (α × List String)) : Prop :=
  ∀ a functions, e = .ok (a, functions) → functions.length = n

theorem Static.hoists_bind {n : Nat} {e : Except RenderError α}
    {f : α → Except RenderError (β × List String)} (h : ∀ a, e = .ok a → Hoists n (f a)) :
    Hoists n (e >>= f) := by
  cases e with
  | error fault => exact fun b functions hrun => nomatch hrun
  | ok a => exact h a rfl

theorem Static.hoists_pure {a : α} {n : Nat} {functions : List String}
    (h : functions.length = n) : Hoists n (pure (a, functions)) := by
  rintro _ _ ⟨⟩
  exact h

/-- A source has as many functions as joins. -/
theorem Static.hoists_source (library : Library) (earlier : List Statement) (s : Source)
    (joins : Nat) : Hoists s.joinCount (source library earlier s joins) := by
  induction s generalizing joins with
  | file token choice path =>
      exact hoists_bind fun _ _ => hoists_bind fun _ _ => hoists_pure rfl
  | named name => exact hoists_bind fun _ _ => hoists_pure rfl
  | select token choice inner filter? ih =>
      exact hoists_bind fun (_, functions) hinner => hoists_bind fun _ _ =>
        hoists_bind fun _ _ => hoists_bind fun _ _ => hoists_pure (ih _ _ _ hinner)
  | aliased token inner name ih =>
      exact hoists_bind fun (_, functions) hinner => hoists_bind fun _ _ =>
        hoists_pure (ih _ _ _ hinner)
  | join token left right condition ihleft ihright =>
      refine hoists_bind fun (_, leftFunctions) hleft => hoists_bind fun _ _ => ?_
      refine hoists_bind fun (_, rightFunctions) hright => hoists_bind fun _ _ => ?_
      refine hoists_bind fun _ _ => hoists_bind fun _ _ => ?_
      refine hoists_bind fun _ _ => hoists_bind fun _ _ => hoists_pure ?_
      simp [ihleft _ _ _ hleft, ihright _ _ _ hright, Source.joinCount, Nat.add_assoc]

/-- Moving a condition out gives it the next number and puts its function behind the others. -/
theorem does_hoist_bind {library : Library} {left right : Source} {condition : Expression}
    {start : Context} {joins : Nat} {finish : List String → Context}
    {f : String → Rendering β} {g : String → Except RenderError (β × List String)}
    (hjoins : start.conditions.length = joins)
    (hf : ∀ function, Does (f (numbered "condition" joins)) (start.hoisting [function]) finish
      (g function)) :
    Does (hoist library left right condition >>= f) start finish
      (joinCondition library (numbered "condition" joins) left right condition >>= g) := by
  subst hjoins
  change (hoist library left right condition start >>= fun r => f r.1 r.2) =
    (joinCondition library start.nextCondition left right condition >>= g).map _
  rw [hoist]
  cases joinCondition library start.nextCondition left right condition with
  | error fault => rfl
  | ok function => exact hf function

/-- In a state that has the bindings of `earlier`, a source is rendered as if it stood behind
`earlier`, and nothing but its conditions is left behind. -/
theorem does_source (library : Library) (s : Source) {earlier : List Statement}
    {context : Context} (h : ∀ name, context.count name = bindingCount name earlier) :
    Does (source library s) context context.hoisting
      (Static.source library earlier s context.conditions.length) := by
  induction s generalizing context with
  | file token choice path => exact does_lift_bind fun _ => does_lift (hoisting_nil context)
  | named name =>
      change reference name context = _
      rw [reference_eq_static (h name.text)]
      exact does_lift (hoisting_nil context)
  | select token choice inner filter? ih =>
      exact does_bind (ih h) fun _ functions _ => does_lift_bind fun _ => does_lift_bind fun _ =>
        does_lift rfl
  | aliased token inner name ih => exact does_bind (ih h) fun _ functions _ => does_lift rfl
  | join token left right condition ihleft ihright =>
      refine does_bind (ihleft h) fun _ leftFunctions hleft => does_lift_bind fun _ => ?_
      have hleftLength := Static.hoists_source _ _ _ _ _ _ hleft
      have hbetween : (context.hoisting leftFunctions).conditions.length =
          context.conditions.length + left.joinCount := by
        rw [Context.hoisting, List.length_append, hleftLength]
      rw [← hbetween]
      refine does_bind (ihright h) fun _ rightFunctions hright => does_lift_bind fun _ => ?_
      have hrightLength := Static.hoists_source _ _ _ _ _ _ hright
      refine does_lift_bind fun type => does_lift_bind fun _ => ?_
      refine does_hoist_bind ?_ fun function => ?_
      · rw [Context.hoisting, List.length_append, hrightLength]
      · exact does_lift (by simp [Context.hoisting])

end Render

/-- The state in which the statements `earlier` leave a rendering: the names they bind, in order,
the number of their outputs, and one function for each of their joins. -/
structure Context.Follows (context : Context) (earlier : List Statement) : Prop where
  bound : context.bound = earlier.flatMap Statement.bindings
  outputs : context.outputs = outputCount earlier
  conditions : context.conditions.length = joinCount earlier

namespace Context.Follows

variable {context next : Context} {earlier : List Statement} {library : Library}

theorem empty : Context.empty.Follows [] := ⟨rfl, rfl, rfl⟩

theorem count (h : context.Follows earlier) (name : String) :
    context.count name = bindingCount name earlier := by
  rw [Context.count, h.bound, count_flatMap_bindings]

theorem behind (h : context.Follows earlier) {statement : Statement} {functions : List String}
    (hfunctions : functions.length = statement.joinCount) :
    (context.behind statement functions).Follows (earlier ++ [statement]) where
  bound := by simp [Context.behind, h.bound]
  outputs := by simp [Context.behind, h.outputs, outputCount, List.countP_singleton]
  conditions := by simp [Context.behind, h.conditions, joinCount, hfunctions]

end Context.Follows

namespace Render

variable {α β : Type}

theorem Static.hoists_statement (library : Library) (earlier : List Statement)
    (st : Statement) : Hoists st.joinCount (statement library earlier st) := by
  cases st with
  | assign name input =>
      exact hoists_bind fun (_, functions) hinput => hoists_bind fun _ _ =>
        hoists_pure (hoists_source _ _ _ _ _ _ hinput)
  | output token input path =>
      exact hoists_bind fun (_, functions) hinput => hoists_bind fun _ _ =>
        hoists_pure (hoists_source _ _ _ _ _ _ hinput)
  | importName token name path => exact hoists_bind fun _ _ => hoists_pure rfl
  | exportName token name => exact hoists_bind fun _ _ => hoists_bind fun _ _ => hoists_pure rfl
  | param token typed default? => exact hoists_bind fun _ _ => hoists_pure rfl
  | setVariable token name assigned => exact hoists_bind fun _ _ => hoists_pure rfl
  | defineVariable typed assigned => exact hoists_bind fun _ _ => hoists_pure rfl

/-- Behind a statement that binds nothing and is no output, only its conditions are left. -/
theorem behind_eq_hoisting {st : Statement} (hbindings : st.bindings = [])
    (houtput : st.isOutput = false) (context : Context) (functions : List String) :
    context.behind st functions = context.hoisting functions := by
  simp [Context.behind, Context.hoisting, hbindings, houtput]

/-- A statement that only fills a snippet does so in every state. -/
theorem does_snippet {e : Except RenderError String} {st : Statement}
    (hbindings : st.bindings = []) (houtput : st.isOutput = false) (context : Context) :
    Does (liftM e) context (context.behind st)
      ((liftM e : Rendering String).run' .empty >>= fun text => pure (text, [])) := by
  have hrun : (liftM e : Rendering String).run' .empty = e := by cases e <;> rfl
  rw [hrun]
  exact does_lift ((behind_eq_hoisting hbindings houtput context []).trans (hoisting_nil context))

/-- A statement is rendered as its place in the script says, in every state that follows the
statements before it. -/
theorem does_statement (library : Library) (st : Statement) {earlier : List Statement}
    {context : Context} (h : context.Follows earlier) :
    Does (statement library st) context (context.behind st)
      (Static.statement library earlier st) := by
  cases st with
  | assign name input =>
      rw [Static.statement, ← h.conditions, ← h.count]
      exact does_bind (does_source library input h.count) fun _ functions _ => does_lift rfl
  | output token input path =>
      rw [Static.statement, ← h.conditions, ← h.outputs]
      refine does_bind (does_source library input h.count) fun _ functions _ => does_lift ?_
      simp [Context.behind, Context.hoisting, Statement.bindings, Statement.isOutput]
  | param token typed default? =>
      cases default? with
      | none => exact does_snippet rfl rfl context
      | some default => exact does_snippet rfl rfl context
  | importName token name path =>
      rw [Static.statement, ← h.count]
      refine does_lift ?_
      rw [Context.behind, List.append_nil]
      rfl
  | exportName token name =>
      rw [Does, statement, bind_congr (reference_eq_static (h.count name.text))]
      refine does_lift_bind fun generated => does_lift ?_
      rw [behind_eq_hoisting rfl rfl, hoisting_nil]
  | setVariable token name assigned => exact does_snippet rfl rfl context
  | defineVariable typed assigned => exact does_snippet rfl rfl context

variable {library : Library} {context next : Context} {earlier statements : List Statement}

/-- One statement keeps the state in step with the statements. -/
theorem follows_statement {st : Statement} {text : String} (h : context.Follows earlier)
    (hrun : statement library st context = .ok (text, next)) : next.Follows (earlier ++ [st]) := by
  rw [does_statement library st h] at hrun
  cases hstatic : Static.statement library earlier st with
  | error fault =>
      rw [hstatic] at hrun
      exact nomatch hrun
  | ok r =>
      rw [hstatic] at hrun
      cases hrun
      exact h.behind (Static.hoists_statement library earlier st _ _ hstatic)

/-- So do all of them, one after another. -/
theorem follows_statements {texts : List String} (h : context.Follows earlier)
    (hrun : statements.mapM (statement library) context = .ok (texts, next)) :
    next.Follows (earlier ++ statements) := by
  induction statements generalizing context earlier texts with
  | nil =>
      cases hrun
      rwa [List.append_nil]
  | cons st rest ih =>
      rw [List.mapM_cons] at hrun
      obtain ⟨⟨text, middle⟩, hfirst, hrun⟩ := ok_of_bind hrun
      obtain ⟨⟨more, last⟩, hrest, hrun⟩ := ok_of_bind hrun
      cases hrun
      rw [List.append_cons]
      exact ih (follows_statement h hfirst) hrest

end Render

/-- When a statement of a script is reached, the state counts exactly the statements before it: the
bindings of each name, the outputs, and the joins at any depth. The rest of the script is rendered
from this state, and the statement that is reached is rendered as these counts say: a reference is
to the latest of the bindings before, wherever in the source it stands, and an error where there is
none, and a name is bound under the next number. -/
theorem statement_refers_to_latest_binding (library : Library) (script : Script) (i : Nat)
    (texts : List String) (context : Context)
    (h : (script.statements.take i).mapM (Render.statement library) .empty =
      .ok (texts, context)) :
    (∀ name, context.count name = bindingCount name (script.statements.take i)) ∧
      context.outputs = outputCount (script.statements.take i) ∧
      context.conditions.length = joinCount (script.statements.take i) ∧
      (script.statements.mapM (Render.statement library) .empty =
        ((script.statements.drop i).mapM (Render.statement library) context).map fun r =>
          (texts ++ r.1, r.2)) ∧
      ∀ statement ∈ script.statements[i]?,
        Render.statement library statement context =
          (Render.Static.statement library (script.statements.take i) statement).map fun r =>
            (r.1, context.behind statement r.2) := by
  have hfollows := Render.follows_statements .empty h
  refine ⟨hfollows.count, hfollows.outputs, hfollows.conditions, ?_, fun statement _ => ?_⟩
  · rw [← Render.statements_append h, List.take_append_drop]
  · exact Render.does_statement library statement hfollows

/-- In `a = EXTRACT * FROM "x"; a = SELECT * FROM a;` the second statement takes from the first
binding of the name and makes the second. -/
theorem statement_refers_to_latest_binding_rebound :
    let all : Fields := .star (.plain (.punctuation .star) .start)
    let name : Name := ⟨.plain .identifier .start, "a"⟩
    let extract : Statement := .assign name
      (.file (.plain (.keyword .EXTRACT) .start) all ⟨.plain .string .start, "x"⟩)
    let again : Statement := .assign name
      (.select (.plain (.keyword .SELECT) .start) all (.named name) none)
    ∃ texts context,
      [extract].mapM (Render.statement .builtin) .empty = .ok (texts, context) ∧
        context.count "a" = 1 ∧
        (Render.statement .builtin again context).toOption.map Prod.fst =
          some "// a\nconst a_1 = sift.select(a_0, sift.allFields(), );" := by
  intro all name extract again
  have hrun : ([extract].mapM (Render.statement .builtin) .empty).toOption.isSome := by
    decide +kernel
  cases hfirst : [extract].mapM (Render.statement .builtin) .empty with
  | error fault =>
      rw [hfirst] at hrun
      exact nomatch hrun
  | ok r =>
      obtain ⟨hcount, -, -, -, hsecond⟩ := statement_refers_to_latest_binding .builtin
        ⟨extract.token, [extract, again]⟩ 1 r.1 r.2 hfirst
      have hagain : Render.statement .builtin again r.2 =
          (Render.Static.statement .builtin [extract] again).map fun s =>
            (s.1, r.2.behind again s.2) := hsecond again rfl
      have htext : (Render.Static.statement .builtin [extract] again).toOption.map Prod.fst =
          some "// a\nconst a_1 = sift.select(a_0, sift.allFields(), );" := by decide +kernel
      refine ⟨r.1, r.2, rfl, hcount "a", ?_⟩
      rw [hagain, ← htext]
      cases Render.Static.statement .builtin [extract] again <;> rfl

end RecordFlow
