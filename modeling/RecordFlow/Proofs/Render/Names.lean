/-
# Invented names

Rendering invents names of one shape, a word and a number: a variable for every binding, one for
every output, and a function for every join. The number holds no underscore, so a name tells its
word and its number, whatever the word looks like. Variables are numbered for each word apart, and
no two of them are alike. Outputs and conditions are numbered under words of their own, and these
words are not kept from scripts: a script that binds `output` and has an output, or binds
`condition` and has a join, gets one name twice. Nothing else makes two names alike.

The names are followed through a run. The state gives one at a time, each of them adds to what was
invented before, and the text has a snippet that declares it.
-/

import Mathlib.Data.List.Nodup
import RecordFlow.Proofs.Render.Conditions

namespace RecordFlow

/-- An invented name tells its word and its number. -/
theorem numbered_inj {a b : String} {m n : Nat} (h : numbered a m = numbered b n) :
    a = b ∧ m = n := by
  -- the number is what stands behind the last underscore
  have htail : ∀ (word : String) (k : Nat),
      (numbered word k).toList.reverse.takeWhile (· != '_') = (Nat.toDigits 10 k).reverse := by
    intro word k
    have hdigits : ∀ c ∈ (Nat.toDigits 10 k).reverse, (c != '_') = true := by
      intro c hc
      have hdigit := Nat.isDigit_of_mem_toDigits (by decide) (by decide) (List.mem_reverse.mp hc)
      by_cases heq : c = '_'
      · rw [heq] at hdigit
        exact nomatch hdigit
      · simpa using heq
    have hreverse : (numbered word k).toList.reverse =
        (Nat.toDigits 10 k).reverse ++ '_' :: word.toList.reverse := by
      simp [numbered, Nat.repr_eq_ofList_toDigits]
    rw [hreverse, List.takeWhile_append_of_pos hdigits]
    simp
  have hnumber : m = n := by
    have hdigits := congrArg (fun name => name.toList.reverse.takeWhile (· != '_')) h
    simp only [htail, List.reverse_inj] at hdigits
    have hvalue := congrArg (fun digits => Nat.ofDigitChars 10 digits 0) hdigits
    simpa only [Nat.ofDigitChars_ten_toDigits] using hvalue
  subst hnumber
  have hword : a ++ ("_" ++ m.repr) = b ++ ("_" ++ m.repr) := by
    simpa [numbered, String.append_assoc] using h
  exact ⟨(String.append_left_inj _).mp hword, rfl⟩

theorem nodup_map_numbered (word : String) (n : Nat) :
    ((List.range n).map (numbered word)).Nodup := by
  exact List.nodup_range.map fun _ _ h => (numbered_inj h).2

namespace Context

/-- The variables of bindings, where both are listed from the latest to the oldest. -/
def variablesOf : List String → List String
  | [] => []
  | name :: earlier => numbered name (earlier.count name) :: variablesOf earlier

/-- All the names that were invented on the way to a state: the variables of the bindings, those of
the outputs, and the functions of the join conditions. -/
def invented (context : Context) : List String :=
  variablesOf context.bound.reverse ++ (List.range context.outputs).map (numbered "output") ++
    (List.range context.conditions.length).map (numbered "condition")

theorem invented_bind (context : Context) (name : String) :
    (context.bind name).2.invented = (context.bind name).1 :: context.invented := by
  simp [invented, bind, variablesOf, count]

theorem invented_nextOutput (context : Context) :
    context.nextOutput.2.invented.Perm (context.nextOutput.1 :: context.invented) := by
  have hmore : (List.range (context.outputs + 1)).map (numbered "output") =
      (List.range context.outputs).map (numbered "output") ++ [context.nextOutput.1] := by
    rw [List.range_succ, List.map_append]
    rfl
  rw [invented, invented]
  change (_ ++ (List.range (context.outputs + 1)).map (numbered "output") ++ _).Perm _
  rw [hmore, ← List.append_assoc, List.append_assoc _ [context.nextOutput.1]]
  exact List.perm_middle

theorem invented_pushCondition (context : Context) (function : String) :
    (context.pushCondition function).invented.Perm
      (context.nextCondition :: context.invented) := by
  have hmore : (List.range (context.conditions ++ [function]).length).map (numbered "condition") =
      (List.range context.conditions.length).map (numbered "condition") ++
        [context.nextCondition] := by
    simp [List.range_succ, nextCondition]
  rw [invented, pushCondition, hmore, ← List.append_assoc]
  exact List.perm_append_singleton _ _

/-- The state gives a name: a variable to a binding, one to an output, or the name of a function to
a join, which keeps the function. -/
inductive Gives : Context → String → Context → Prop
  | binding (context : Context) (name : String) :
      Gives context (context.bind name).1 (context.bind name).2
  | output (context : Context) : Gives context context.nextOutput.1 context.nextOutput.2
  | condition (context : Context) (function : String) :
      Gives context context.nextCondition (context.pushCondition function)

/-- Names that are given one after another on the way from one state to another. -/
inductive GivesAll : Context → List String → Context → Prop
  | nil (context : Context) : GivesAll context [] context
  | cons {context between next : Context} {name : String} {names : List String}
      (hfirst : Gives context name between) (hrest : GivesAll between names next) :
      GivesAll context (name :: names) next

theorem Gives.perm {context next : Context} {name : String} (h : Gives context name next) :
    next.invented.Perm (name :: context.invented) := by
  cases h with
  | binding name => exact .of_eq (context.invented_bind name)
  | output => exact context.invented_nextOutput
  | condition function => exact context.invented_pushCondition function

namespace GivesAll

variable {context between next : Context} {names more : List String}

/-- Nothing is invented on the way between two states but the names that are given. -/
theorem perm (h : GivesAll context names next) :
    next.invented.Perm (names ++ context.invented) := by
  induction h with
  | nil _ => exact .refl _
  | @cons context _ _ name names hfirst _ ih =>
      exact ih.trans ((hfirst.perm.append_left names).trans List.perm_middle)

theorem append (h : GivesAll context names between) (hmore : GivesAll between more next) :
    GivesAll context (names ++ more) next := by
  induction h with
  | nil _ => exact hmore
  | cons hfirst _ ih => exact .cons hfirst (ih hmore)

end GivesAll

/-! ## Which names are alike -/

theorem mem_variablesOf {bound : List String} {generated : String} :
    generated ∈ variablesOf bound ↔
      ∃ name k, k < bound.count name ∧ numbered name k = generated := by
  induction bound with
  | nil => simp [variablesOf]
  | cons latest earlier ih =>
      rw [variablesOf, List.mem_cons, ih]
      constructor
      · rintro (rfl | ⟨name, k, hk, rfl⟩)
        · exact ⟨latest, earlier.count latest, by simp, rfl⟩
        · exact ⟨name, k, Nat.lt_of_lt_of_le hk (List.count_le_count_cons), rfl⟩
      · rintro ⟨name, k, hk, rfl⟩
        rw [List.count_cons] at hk
        by_cases hlast : k < earlier.count name
        · exact .inr ⟨name, k, hlast, rfl⟩
        · left
          split at hk
          · next hname =>
              have heq : latest = name := by simpa using hname
              subst heq
              have hk : k = earlier.count latest := by omega
              rw [hk]
          · omega

theorem nodup_variablesOf (bound : List String) : (variablesOf bound).Nodup := by
  induction bound with
  | nil => exact List.nodup_nil
  | cons latest earlier ih =>
      refine List.nodup_cons.mpr ⟨fun hmem => ?_, ih⟩
      obtain ⟨name, k, hk, heq⟩ := mem_variablesOf.mp hmem
      obtain ⟨rfl, rfl⟩ := numbered_inj heq
      exact Nat.lt_irrefl _ hk

/-- Names under a word of rendering's own are apart from the variables if and only if the script
does not bind the word, or there are none of them. -/
theorem disjoint_variablesOf_iff (bound : List String) (word : String) (n : Nat) :
    (variablesOf bound).Disjoint ((List.range n).map (numbered word)) ↔
      bound.count word = 0 ∨ n = 0 := by
  constructor
  · intro h
    by_contra hboth
    have hzero : numbered word 0 ∈ variablesOf bound :=
      mem_variablesOf.mpr ⟨word, 0, by omega, rfl⟩
    exact h hzero (List.mem_map.mpr ⟨0, List.mem_range.mpr (by omega), rfl⟩)
  · intro h generated hvariable hother
    obtain ⟨name, k, hk, rfl⟩ := mem_variablesOf.mp hvariable
    obtain ⟨j, hj, heq⟩ := List.mem_map.mp hother
    obtain ⟨rfl, rfl⟩ := numbered_inj heq
    have hj := List.mem_range.mp hj
    omega

theorem nodup_invented_iff (context : Context) :
    context.invented.Nodup ↔
      (context.count "output" = 0 ∨ context.outputs = 0) ∧
        (context.count "condition" = 0 ∨ context.conditions.length = 0) := by
  have hwords : ((List.range context.outputs).map (numbered "output")).Disjoint
      ((List.range context.conditions.length).map (numbered "condition")) := by
    intro generated houtput hcondition
    obtain ⟨j, -, rfl⟩ := List.mem_map.mp houtput
    obtain ⟨k, -, heq⟩ := List.mem_map.mp hcondition
    exact absurd (numbered_inj heq).1 (by decide)
  rw [invented, List.nodup_append', List.nodup_append', List.disjoint_append_left]
  simp only [nodup_variablesOf, nodup_map_numbered, hwords, true_and, and_true,
    disjoint_variablesOf_iff, List.count_reverse, count]

theorem length_variablesOf (bound : List String) : (variablesOf bound).length = bound.length := by
  induction bound with
  | nil => rfl
  | cons latest earlier ih => rw [variablesOf, List.length_cons, ih, List.length_cons]

theorem length_invented (context : Context) :
    context.invented.length =
      context.bound.length + context.outputs + context.conditions.length := by
  simp [invented, length_variablesOf, Nat.add_assoc]

end Context

namespace Render

open Text (Holds)

/-- The snippets that declare a name, each with the key under which it takes the name. -/
def declaring : List (Role × String) :=
  [(.assignment, "variableName"), (.importName, "variableName"), (.output, "variableName"),
    (.joinCondition, "name")]

/-- A text that contains a snippet which declares the name. -/
def Declares (library : Library) (text name : String) : Prop :=
  ∃ role key token values piece, (role, key) ∈ declaring ∧ values.map Prod.fst = role.keys ∧
    (key, name) ∈ values ∧ snippet library role token values = .ok piece ∧ Holds text piece

variable {library : Library} {context next : Context} {text out : String}

theorem Declares.holds {name : String} (h : Declares library text name) : Holds text name := by
  obtain ⟨role, key, token, values, piece, -, hkeys, hname, hpiece, hholds⟩ := h
  exact hholds.trans (holds_snippet hpiece hkeys name (List.mem_map_of_mem hname))

/-- One state leads to another by names that are given on the way, and the text declares all of
them. -/
def Leads (library : Library) (text : String) (context next : Context) : Prop :=
  ∃ names, context.GivesAll names next ∧ ∀ name ∈ names, Declares library text name

namespace Leads

theorem refl (context : Context) : Leads library text context context :=
  ⟨[], .nil context, by simp⟩

theorem of_gives {name : String} (h : context.Gives name next)
    (hdeclares : Declares library text name) : Leads library text context next :=
  ⟨[name], .cons h (.nil next), List.forall_mem_singleton.mpr hdeclares⟩

theorem trans {between : Context} (h : Leads library text context between)
    (hnext : Leads library text between next) : Leads library text context next := by
  obtain ⟨names, hgives, hdeclares⟩ := h
  obtain ⟨more, hgivesMore, hdeclaresMore⟩ := hnext
  exact ⟨names ++ more, hgives.append hgivesMore,
    List.forall_mem_append.mpr ⟨hdeclares, hdeclaresMore⟩⟩

end Leads

/-- The functions of joins are declared under the names that are given to the joins. -/
theorem leads_of_wired {visits : List Visit} {functions : List String}
    (h : WiredFrom library text context.conditions.length visits functions)
    (hfunctions : ∀ function ∈ functions, Holds out function) :
    Leads library out context (context.hoisting functions) := by
  induction functions generalizing context visits with
  | nil =>
      rw [hoisting_nil]
      exact .refl context
  | cons function functions ih =>
      obtain ⟨hholds, hothers⟩ := List.forall_mem_cons.mp hfunctions
      cases h with
      | cons hwired _ hrest =>
          obtain ⟨_, _, _, _, _, _, _, -, -, -, -, -, hfunction, -⟩ := hwired
          have hself : Declares library out context.nextCondition :=
            ⟨.joinCondition, "name", _, _, function, by decide, rfl, List.mem_cons_self, hfunction,
              hholds⟩
          have hlength : context.conditions.length + 1 =
              (context.pushCondition function).conditions.length := by
            simp [Context.pushCondition]
          have hnext : (context.pushCondition function).hoisting functions =
              context.hoisting (function :: functions) := by
            simp [Context.pushCondition, Context.hoisting]
          rw [hlength] at hrest
          rw [← hnext]
          exact (Leads.of_gives (.condition context function) hself).trans (ih hrest hothers)

/-- A source leads from its state to the next by the names of its join conditions. -/
theorem leads_source {s : Source} (h : source library s context = .ok (text, next))
    (hfunctions : ∀ function ∈ next.conditions, Holds out function) :
    Leads library out context next := by
  obtain ⟨functions, rfl, hwired⟩ := wired_source h
  exact leads_of_wired hwired fun function hfunction =>
    hfunctions function (List.mem_append_right _ hfunction)

/-- A statement that fills one snippet asks for no name. -/
theorem leads_snippet {e : Except RenderError String}
    (h : (liftM e : Rendering String) context = .ok (text, next)) :
    Leads library out context next := by
  obtain ⟨-, rfl⟩ := run_of_lift h
  exact .refl context

/-- A statement leads from its state to the next by the names of its source and the one that it
binds or counts. -/
theorem leads_statement {st : Statement} (h : statement library st context = .ok (text, next))
    (htext : Holds out text) (hfunctions : ∀ function ∈ next.conditions, Holds out function) :
    Leads library out context next := by
  cases st with
  | assign name input =>
      rw [statement] at h
      obtain ⟨_, between, hinput, h⟩ := run_of_bind h
      obtain ⟨_, _, hbind, h⟩ := run_of_bind h
      obtain ⟨hsnippet, rfl⟩ := run_of_lift h
      cases hbind
      refine (leads_source hinput hfunctions).trans (.of_gives (.binding between name.text) ?_)
      exact ⟨.assignment, "variableName", _, _, text, by decide, rfl, List.mem_cons_self, hsnippet,
        htext⟩
  | output token input path =>
      rw [statement] at h
      obtain ⟨_, between, hinput, h⟩ := run_of_bind h
      obtain ⟨_, _, houtput, h⟩ := run_of_bind h
      obtain ⟨hsnippet, rfl⟩ := run_of_lift h
      cases houtput
      refine (leads_source hinput hfunctions).trans (.of_gives (.output between) ?_)
      exact ⟨.output, "variableName", _, _, text, by decide, rfl, List.mem_cons_self, hsnippet,
        htext⟩
  | param token typed default? =>
      cases default? with
      | none => exact leads_snippet h
      | some default => exact leads_snippet h
  | importName token name path =>
      rw [statement] at h
      obtain ⟨_, _, hbind, h⟩ := run_of_bind h
      obtain ⟨hsnippet, rfl⟩ := run_of_lift h
      cases hbind
      refine .of_gives (.binding context name.text) ?_
      exact ⟨.importName, "variableName", _, _, text, by decide, rfl, List.mem_cons_self, hsnippet,
        htext⟩
  | exportName token name =>
      rw [statement] at h
      obtain ⟨_, _, hreference, h⟩ := run_of_bind h
      rw [run_of_reference hreference] at h
      exact leads_snippet h
  | setVariable token name assigned => exact leads_snippet h
  | defineVariable typed assigned => exact leads_snippet h

/-- Statements lead from state to state, one after the other. -/
theorem leads_statements {statements : List Statement} {texts : List String}
    (h : statements.mapM (statement library) context = .ok (texts, next))
    (htexts : ∀ text ∈ texts, Holds out text)
    (hfunctions : ∀ function ∈ next.conditions, Holds out function) :
    Leads library out context next := by
  induction statements generalizing context texts with
  | nil =>
      cases h
      exact .refl _
  | cons st rest ih =>
      rw [List.mapM_cons] at h
      obtain ⟨text, between, hfirst, h⟩ := run_of_bind h
      obtain ⟨more, _, hrest, h⟩ := run_of_bind h
      cases h
      obtain ⟨htext, hothers⟩ := List.forall_mem_cons.mp htexts
      have hlast : Leads library out between next := ih hrest hothers
      obtain ⟨functions, hconditions, -⟩ := wired_statements hrest hothers
      rw [hconditions] at hfunctions
      exact (leads_statement hfirst htext (List.forall_mem_append.mp hfunctions).1).trans hlast

end Render

/-- A text that compiles is given one name for every binding, output and join, one after another in
the run that renders it, and what it is compiled to declares them all. They are all different if and
only if the text does not bind `output` next to an output of its own, nor `condition` next to a
join. -/
theorem compile_invented_nodup_iff (library : Library) (source text : String)
    (h : compile library source = .ok text) :
    ∃ script texts final names, readScript source = .ok script ∧
      script.statements.mapM (Render.statement library) .empty = .ok (texts, final) ∧
      Context.empty.GivesAll names final ∧ names.Perm final.invented ∧
      (∀ name ∈ names,
        Render.Declares library text name ∧ name.toList <:+: text.toList) ∧
      names.length = (script.statements.flatMap Statement.bindings).length +
        outputCount script.statements + joinCount script.statements ∧
      (names.Nodup ↔
        (bindingCount "output" script.statements = 0 ∨ outputCount script.statements = 0) ∧
          (bindingCount "condition" script.statements = 0 ∨
            joinCount script.statements = 0)) := by
  obtain ⟨script, hread, hrender⟩ := compile_eq_ok_iff.mp h
  rw [Render.render_eq] at hrender
  obtain ⟨⟨texts, final⟩, hrun, hfinish⟩ := Render.ok_of_bind hrender
  obtain ⟨htexts, hfunctions⟩ := Render.holds_finish hfinish
  obtain ⟨names, hgives, hdeclares⟩ := Render.leads_statements hrun htexts hfunctions
  have hperm : names.Perm final.invented := by
    have hall := hgives.perm.symm
    rwa [show Context.empty.invented = [] from rfl, List.append_nil] at hall
  have hfollows := Render.follows_statements .empty hrun
  rw [List.nil_append] at hfollows
  refine ⟨script, texts, final, names, hread, hrun, hgives, hperm, ?_, ?_, ?_⟩
  · exact fun name hname => ⟨hdeclares name hname, (hdeclares name hname).holds⟩
  · rw [hperm.length_eq, final.length_invented, hfollows.bound, hfollows.outputs,
      hfollows.conditions]
  · rw [hperm.nodup_iff, final.nodup_invented_iff, hfollows.count, hfollows.count,
      hfollows.outputs, hfollows.conditions]

/-- The names `a` and `a_0` get different variables, and an output next to them a third name. -/
theorem compile_invented_nodup_underscores :
    let source := "a = EXTRACT * FROM \"x\"; a_0 = SELECT * FROM a; OUTPUT a_0 TO \"y\";"
    let texts := ["// a\nconst a_0 = sift.extract(\"x\", sift.allFields());",
      "// a_0\nconst a_0_0 = sift.select(a_0, sift.allFields(), );",
      "const output_0 = sift.output(a_0_0, \"y\");"]
    compile .builtin source = .ok (Render.builtinText texts []) ∧
      ∃ script final names, readScript source = .ok script ∧
        script.statements.mapM (Render.statement .builtin) .empty = .ok (texts, final) ∧
        Context.empty.GivesAll names final ∧ names.Perm ["a_0", "a_0_0", "output_0"] ∧
        names.Nodup := by
  intro source texts
  have hcomputed : ((readScript source).toOption.bind fun script =>
      (script.statements.mapM (Render.statement .builtin) .empty).toOption.map fun r =>
        (bindingCount "output" script.statements, joinCount script.statements, r)) =
      some (0, 0, texts, ⟨["a", "a_0"], [], 1⟩) := by
    decide +kernel
  obtain ⟨script, _, _, hread, hrun, hvalues, -, hcompile⟩ := compile_builtin hcomputed
  simp only [Prod.mk.injEq] at hvalues
  obtain ⟨houtput, hjoins, rfl, rfl⟩ := hvalues
  obtain ⟨_, _, final, names, hsame, hagain, hgives, hperm, -, -, hnodup⟩ :=
    compile_invented_nodup_iff .builtin source _ hcompile
  cases hread.symm.trans hsame
  cases hrun.symm.trans hagain
  have hinvented : (Context.mk ["a", "a_0"] [] 1).invented.Perm ["a_0", "a_0_0", "output_0"] := by
    decide
  exact ⟨hcompile, script, _, names, hread, hrun, hgives, hperm.trans hinvented,
    hnodup.mpr ⟨.inl houtput, .inr hjoins⟩⟩

/-- The variable of a binding of `output` and that of the first output are one name. -/
theorem invented_output_twice :
    let source := "output = EXTRACT * FROM \"a\"; OUTPUT output TO \"b\";"
    let texts := ["// output\nconst output_0 = sift.extract(\"a\", sift.allFields());",
      "const output_0 = sift.output(output_0, \"b\");"]
    compile .builtin source = .ok (Render.builtinText texts []) ∧
      ∃ script final, readScript source = .ok script ∧
        script.statements.mapM (Render.statement .builtin) .empty = .ok (texts, final) ∧
        Context.empty.GivesAll ["output_0", "output_0"] final ∧
        final.invented = ["output_0", "output_0"] := by
  intro source texts
  have hcomputed : ((readScript source).toOption.bind fun script =>
      (script.statements.mapM (Render.statement .builtin) .empty).toOption.map id) =
      some (texts, ⟨["output"], [], 1⟩) := by
    decide +kernel
  obtain ⟨script, _, _, hread, hrun, hvalues, -, hcompile⟩ := compile_builtin hcomputed
  cases hvalues
  exact ⟨hcompile, script, _, hread, hrun,
    .cons (.binding .empty "output") (.cons (.output _) (.nil _)), by decide⟩

end RecordFlow
