/-
# Calls on the state of a rendering

Rendering binds names, asks for their latest variables, keeps conditions and numbers outputs, in any
order that a script brings about. Here such calls are made one after another, whatever their order,
and every call is kept with its answer. No variable is given twice. A name is answered with the
variable of its latest binding, and conditions and outputs have no part in that.

The state is a history, and a number is counted from it when it is asked for. A table of counters
does the same work: it has an entry for each name that was bound, and the latest variable is one
below its counter. The table gives the same answers, and it never has to go below zero.
-/

import RecordFlow.Proofs.Render.Names

namespace RecordFlow.Context

/-- What can be asked of the state of a rendering. -/
inductive Call
  | bind (name : String)
  | resolve (name : String)
  | pushCondition (function : String)
  | nextCondition
  | nextOutput
deriving DecidableEq

namespace Call

/-- Whether a call makes a binding. -/
def isBind : Call → Bool
  | bind _ => true
  | _ => false

/-- Whether a call is about the bindings. -/
def isNaming : Call → Bool
  | bind _ | resolve _ => true
  | _ => false

end Call

/-- A call with its answer. To keep a condition has no answer, and neither has a name without a
binding. -/
abbrev Exchange := Call × Option String

/-- Make a call. -/
def call (context : Context) : Call → Option String × Context
  | .bind name => (some (context.bind name).1, (context.bind name).2)
  | .resolve name => (context.resolve? name, context)
  | .pushCondition function => (none, context.pushCondition function)
  | .nextCondition => (some context.nextCondition, context)
  | .nextOutput => (some context.nextOutput.1, context.nextOutput.2)

/-- Make calls one after another. -/
def run (context : Context) : List Call → List Exchange × Context
  | [] => ([], context)
  | c :: calls =>
      let (answer, next) := context.call c
      let (exchanges, final) := next.run calls
      ((c, answer) :: exchanges, final)

@[simp]
theorem run_cons (context : Context) (c : Call) (calls : List Call) :
    context.run (c :: calls) =
      ((c, (context.call c).1) :: ((context.call c).2.run calls).1,
        ((context.call c).2.run calls).2) := rfl

variable {context : Context}

/-- Every call has its exchange, in the order of the calls. -/
theorem map_fst_run (context : Context) (calls : List Call) :
    (context.run calls).1.map Prod.fst = calls := by
  induction calls generalizing context with
  | nil => rfl
  | cons c calls ih => rw [run_cons, List.map_cons, ih]

/-- The variable that an exchange gives, if it is about a binding. -/
def given? : Exchange → Option String
  | (.bind _, answer) => answer
  | _ => none

/-- A call adds the variable that it gives, and no other. -/
theorem variablesOf_call (context : Context) (c : Call) :
    variablesOf (context.call c).2.bound.reverse =
      (given? (c, (context.call c).1)).toList ++ variablesOf context.bound.reverse := by
  cases c with
  | bind name => simp [call, bind, given?, variablesOf, count]
  | resolve name => rfl
  | pushCondition function => rfl
  | nextCondition => rfl
  | nextOutput => rfl

/-- The variables of the bindings are those that the calls gave, the latest first. -/
theorem variablesOf_run (context : Context) (calls : List Call) :
    variablesOf (context.run calls).2.bound.reverse =
      ((context.run calls).1.filterMap given?).reverse ++
        variablesOf context.bound.reverse := by
  induction calls generalizing context with
  | nil => rfl
  | cons c calls ih =>
      rw [run_cons, ih, variablesOf_call, List.filterMap_cons]
      cases given? (c, (context.call c).1) <;> simp

theorem nodup_variables_run (context : Context) (calls : List Call) :
    ((context.run calls).1.filterMap given?).Nodup := by
  have hall := nodup_variablesOf (context.run calls).2.bound.reverse
  rw [variablesOf_run] at hall
  exact List.nodup_reverse.mp hall.of_append_left

/-- Every binding is answered. -/
theorem length_variables_run (context : Context) (calls : List Call) :
    ((context.run calls).1.filterMap given?).length = calls.countP Call.isBind := by
  induction calls generalizing context with
  | nil => rfl
  | cons c calls ih =>
      rw [run_cons, List.filterMap_cons, List.countP_cons, ← ih (context.call c).2]
      cases c <;> rfl

/-- The answer to the latest binding of a name, if there is one. -/
def latest? (name : String) (earlier : List Exchange) : Option String :=
  (earlier.reverse.find? fun exchange => exchange.1 = .bind name).bind Prod.snd

theorem latest?_concat (name : String) (earlier : List Exchange) (exchange : Exchange) :
    latest? name (earlier ++ [exchange]) =
      if exchange.1 = .bind name then exchange.2 else latest? name earlier := by
  by_cases h : exchange.1 = .bind name <;> simp [latest?, h]

theorem count_bind (context : Context) (bound name : String) :
    (context.bind bound).2.count name = context.count name + if bound = name then 1 else 0 := by
  simp [bind, count, List.count_append, List.count_singleton]

/-- A binding changes the variable of its own name, and nothing else changes any. -/
theorem resolve?_call (context : Context) (c : Call) (name : String) :
    (context.call c).2.resolve? name =
      if c = .bind name then (context.call c).1 else context.resolve? name := by
  cases c with
  | bind bound =>
      by_cases h : bound = name
      · subst h
        have hcount : (context.bind bound).2.count bound = context.count bound + 1 := by
          simp [count_bind]
        simp only [call, resolve?, hcount, if_true]
        rfl
      · simp [call, resolve?, count_bind, h]
  | resolve bound => rfl
  | pushCondition function => rfl
  | nextCondition => rfl
  | nextOutput => rfl

/-- A state that answers for each name with the latest binding among `earlier` does so at every
place of a run, when the exchanges up to there are added. -/
theorem resolve_answer_of_run {earlier : List Exchange} (calls : List Call)
    (hlatest : ∀ name, context.resolve? name = latest? name earlier)
    {before after : List Exchange} {name : String} {answer : Option String}
    (h : (context.run calls).1 = before ++ (.resolve name, answer) :: after) :
    answer = latest? name (earlier ++ before) := by
  induction calls generalizing context earlier before with
  | nil => simp [run] at h
  | cons c calls ih =>
      rw [run_cons] at h
      cases before with
      | nil =>
          obtain ⟨hhere, -⟩ := List.cons.inj h
          cases hhere
          rw [List.append_nil]
          exact hlatest name
      | cons exchange before =>
          obtain ⟨rfl, hrest⟩ := List.cons.inj h
          have hnext : ∀ other, (context.call c).2.resolve? other =
              latest? other (earlier ++ [(c, (context.call c).1)]) := by
            intro other
            rw [latest?_concat, resolve?_call, hlatest]
          rw [ih hnext hrest, List.append_assoc]
          rfl

/-- The bindings after a call depend on the bindings before it only. -/
theorem bound_call {other : Context} (h : context.bound = other.bound) (c : Call) :
    (context.call c).2.bound = (other.call c).2.bound := by
  cases c <;> simp [call, bind, pushCondition, nextOutput, h]

theorem bound_call_of_not_isNaming {c : Call} (h : c.isNaming = false) :
    (context.call c).2.bound = context.bound := by
  cases c with
  | bind name => exact absurd h (by simp [Call.isNaming])
  | resolve name => rfl
  | pushCondition function => rfl
  | nextCondition => rfl
  | nextOutput => rfl

/-- So do the answers to the calls about bindings. -/
theorem answer_call {other : Context} (h : context.bound = other.bound) {c : Call}
    (hc : c.isNaming) : (context.call c).1 = (other.call c).1 := by
  cases c with
  | bind name => simp [call, bind, count, h]
  | resolve name => simp [call, resolve?, count, h]
  | pushCondition function => simp [Call.isNaming] at hc
  | nextCondition => simp [Call.isNaming] at hc
  | nextOutput => simp [Call.isNaming] at hc

/-- Leaving the other calls out changes no answer about bindings. -/
theorem filter_run {other : Context} (h : context.bound = other.bound) (calls : List Call) :
    (context.run calls).1.filter (fun exchange => exchange.1.isNaming) =
      (other.run (calls.filter Call.isNaming)).1 := by
  induction calls generalizing context other with
  | nil => rfl
  | cons c calls ih =>
      rw [run_cons, List.filter_cons, List.filter_cons]
      cases hc : c.isNaming with
      | true => simp [ih (bound_call h c), answer_call h hc]
      | false => simpa using ih ((bound_call_of_not_isNaming hc).trans h)

end Context

/-! ## A table of counters -/

/-- The state of a rendering with a counter for each name. -/
structure Tally where
  /-- How often each name was bound. A name that was not bound has no entry. -/
  counters : Std.HashMap String Nat
  /-- The functions that hold the join conditions, in order. -/
  conditions : List String
  /-- The number of outputs. -/
  outputs : Nat

namespace Tally

open Context

/-- The table before any call. -/
def empty : Tally := ⟨∅, [], 0⟩

/-- Make a call on the table. There is no result if a number would go below zero. -/
def call (tally : Tally) : Call → Option (Option String × Tally)
  | .bind name =>
      let counter := tally.counters.getD name 0
      some (some (numbered name counter),
        { tally with counters := tally.counters.insert name (counter + 1) })
  | .resolve name =>
      match tally.counters[name]? with
      | none => some (none, tally)
      | some 0 => none
      | some (n + 1) => some (some (numbered name n), tally)
  | .pushCondition function =>
      some (none, { tally with conditions := tally.conditions ++ [function] })
  | .nextCondition => some (some (numbered "condition" tally.conditions.length), tally)
  | .nextOutput =>
      some (some (numbered "output" tally.outputs), { tally with outputs := tally.outputs + 1 })

/-- Make calls on the table, up to the first that has no result. -/
def run (tally : Tally) : List Call → Option (List Exchange × Tally)
  | [] => some ([], tally)
  | c :: calls => do
      let (answer, next) ← tally.call c
      let (exchanges, final) ← next.run calls
      return ((c, answer) :: exchanges, final)

/-- A table that counts the bindings of a history. Its entries are never zero. -/
structure Counts (tally : Tally) (context : Context) : Prop where
  counters : ∀ name, tally.counters[name]? =
    if context.count name = 0 then none else some (context.count name)
  conditions : tally.conditions = context.conditions
  outputs : tally.outputs = context.outputs

variable {tally : Tally} {context : Context}

theorem counts_empty : Counts empty Context.empty where
  counters := by simp [empty, Context.empty, count]
  conditions := rfl
  outputs := rfl

theorem Counts.getD (h : Counts tally context) (name : String) :
    tally.counters.getD name 0 = context.count name := by
  rw [Std.HashMap.getD_eq_getD_getElem?, h.counters]
  split
  · next hzero => rw [hzero]; rfl
  · rfl

theorem Counts.bind (h : Counts tally context) (name : String) :
    Counts { tally with counters := tally.counters.insert name (context.count name + 1) }
      (context.bind name).2 where
  counters := by
    intro other
    rw [Std.HashMap.getElem?_insert, count_bind]
    by_cases hname : name = other
    · subst hname
      simp
    · simp [hname, h.counters]
  conditions := h.conditions
  outputs := h.outputs

/-- A call on the table has a result. The answer is that of the history, and the table counts it. -/
theorem Counts.call (h : Counts tally context) (c : Call) :
    ∃ next, tally.call c = some ((context.call c).1, next) ∧ Counts next (context.call c).2 := by
  cases c with
  | bind name =>
      refine ⟨_, ?_, h.bind name⟩
      simp [Tally.call, Context.call, Context.bind, h.getD]
  | resolve name =>
      refine ⟨tally, ?_, h⟩
      cases hcount : context.count name with
      | zero => simp [Tally.call, Context.call, resolve?, h.counters, hcount]
      | succ n => simp [Tally.call, Context.call, resolve?, h.counters, hcount]
  | pushCondition function =>
      exact ⟨_, rfl, h.counters, congrArg (· ++ [function]) h.conditions, h.outputs⟩
  | nextCondition =>
      exact ⟨tally, by rw [Tally.call, h.conditions]; rfl, h⟩
  | nextOutput =>
      refine ⟨{ tally with outputs := tally.outputs + 1 }, ?_, ?_⟩
      · rw [Tally.call, h.outputs]
        rfl
      · exact ⟨h.counters, h.conditions, congrArg (· + 1) h.outputs⟩

theorem Counts.run (h : Counts tally context) (calls : List Call) :
    ∃ final, tally.run calls = some ((context.run calls).1, final) ∧
      Counts final (context.run calls).2 := by
  induction calls generalizing tally context with
  | nil => exact ⟨tally, rfl, h⟩
  | cons c calls ih =>
      obtain ⟨next, hcall, hnext⟩ := h.call c
      obtain ⟨final, hrun, hfinal⟩ := ih hnext
      exact ⟨final, by simp [Tally.run, hcall, hrun], hfinal⟩

end Tally

/-- Over any calls in any order, from the state before anything is rendered: each call is answered
in its place. The variables given for bindings are all different, one for each binding. A name is
answered with the variable of its latest binding, and with none if there is no binding before. A
table of counters answers all of the calls in the same way and never goes below zero. Leaving out
the calls for conditions and outputs leaves every answer about bindings as it is. -/
theorem calls_unambiguous (calls : List Context.Call) :
    let exchanges := (Context.empty.run calls).1
    exchanges.map Prod.fst = calls ∧
      (exchanges.filterMap Context.given?).Nodup ∧
      (exchanges.filterMap Context.given?).length = calls.countP Context.Call.isBind ∧
      (∀ before name answer after, exchanges = before ++ (.resolve name, answer) :: after →
        answer = Context.latest? name before) ∧
      (∃ final, Tally.empty.run calls = some (exchanges, final)) ∧
      exchanges.filter (fun exchange => exchange.1.isNaming) =
        (Context.empty.run (calls.filter Context.Call.isNaming)).1 := by
  intro exchanges
  refine ⟨Context.map_fst_run _ calls, Context.nodup_variables_run _ calls,
    Context.length_variables_run _ calls, ?_, ?_, Context.filter_run rfl calls⟩
  · intro before name answer after hexchanges
    have hnone : ∀ other, Context.empty.resolve? other = Context.latest? other [] := fun _ => rfl
    exact Context.resolve_answer_of_run calls hnone hexchanges
  · obtain ⟨final, hrun, -⟩ := Tally.counts_empty.run calls
    exact ⟨final, hrun⟩

end RecordFlow
