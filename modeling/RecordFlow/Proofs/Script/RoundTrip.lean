/-
# Reading gives back what was written

A well-formed script that is written as tokens, in any layout, is read without an error and comes
back as it was, with every token that its nodes keep. Statements are read back one round at a time.
That no token of a statement ends the text need not be looked up in the printer: what is read
without an error is a word of the grammar, and the end of the text is in none.
-/

import RecordFlow.Proofs.Grammar.Soundness
import RecordFlow.Proofs.Script.Restore

namespace RecordFlow

open Production

namespace Layout

variable (layout : Layout) {ks : List Token}

theorem read_value {v : Value} (h : v.WellFormed) (ks : List Token) :
    Value.production (value v ++ ks) = .ok v ks := by
  cases v with
  | text literal =>
      exact choose_leaf (by simp only [Value.after?, h.1]) (congrArg Value.text h.2) ks
  | number literal =>
      have hnumber := congrArg Value.number h.2
      rcases h.1 with hkind | hkind
      · exact choose_leaf (by simp only [Value.after?, hkind]) hnumber ks
      · exact choose_leaf (by simp only [Value.after?, hkind]) hnumber ks
  | truth literal =>
      exact choose_leaf (by simp only [Value.after?, h.1]) (congrArg Value.truth h.2) ks
  | reference token name =>
      obtain ⟨htoken, hname⟩ := h
      have hafter : Value.after? token = some (Value.afterAt token) := by
        simp only [Value.after?, htoken]
      exact (choose_cons hafter _).trans (bind_of_ok (hname.read _ ks))
  | expression e =>
      exact choose_leaf (by simp only [Value.after?, h.1]) (congrArg Value.expression h.2) ks

theorem read_default? {value? : Option Value} (h : ∀ v ∈ value?, v.WellFormed)
    (hks : Avoids [.punctuation .equal] ks) :
    Statement.default? (layout.default? value? ++ ks) = .ok value? ks := by
  cases value? with
  | none => exact bind_of_ok (accept?_of_avoids hks)
  | some v =>
      refine (bind_of_ok (accept?_cons (layout.kind_mark .equal) _)).trans ?_
      exact bind_of_ok (read_value (h v rfl) ks)

/-- The first token of a statement decides how it is read, and the rest is then read back up to the
semicolon. -/
theorem read_body {statement : Statement} (h : statement.WellFormed) :
    ∃ t us p, layout.body statement = t :: us ∧ Statement.body? t = some p ∧
      ∀ ks, p (us ++ layout.mark .semicolon :: ks) =
        .ok statement (layout.mark .semicolon :: ks) := by
  cases statement with
  | assign name source =>
      obtain ⟨hname, hsource⟩ := h
      refine ⟨name.token, _, Statement.afterName name, rfl, ?_, fun ks => ?_⟩
      · simp only [Statement.body?, hname.1]
        rw [← hname.2]
      · have hsemicolon : Avoids Source.tails (layout.mark .semicolon :: ks) :=
          avoids_cons (by simp [Source.tails, Source.joinWords])
        refine (bind_of_ok (take_cons (layout.kind_mark .equal) _ _)).trans ?_
        exact bind_of_ok (layout.read_source hsource hsemicolon)
  | output token source path =>
      obtain ⟨htoken, hsource, hpath⟩ := h
      refine ⟨token, _, Statement.afterOutput token, rfl, ?_, fun ks => ?_⟩
      · simp only [Statement.body?, htoken]
      · have hto : Avoids Source.tails
            (layout.word .TO :: path.token :: layout.mark .semicolon :: ks) :=
          avoids_cons (by simp [Source.tails, Source.joinWords])
        rw [List.append_assoc]
        refine (bind_of_ok (layout.read_source hsource hto)).trans ?_
        refine (bind_of_ok (take_cons (layout.kind_word .TO) _ _)).trans ?_
        exact bind_of_ok (hpath.read _ _)
  | param token typed value? =>
      obtain ⟨htoken, ⟨hsign, hname, htype⟩, hvalue⟩ := h
      refine ⟨token, _, Statement.afterParam token, rfl, ?_, fun ks => ?_⟩
      · simp only [Statement.body?, htoken]
      · refine (bind_of_ok (take_cons hsign _ _)).trans ?_
        refine (bind_of_ok (hname.read _ _)).trans ?_
        refine (bind_of_ok (take_cons (layout.kind_mark .colon) _ _)).trans ?_
        refine (bind_of_ok (htype.read _ _)).trans ?_
        exact bind_of_ok (layout.read_default? hvalue (avoids_cons (by simp)))
  | importName token name path =>
      obtain ⟨htoken, hname, hpath⟩ := h
      refine ⟨token, _, Statement.afterImport token, rfl, ?_, fun ks => ?_⟩
      · simp only [Statement.body?, htoken]
      · refine (bind_of_ok (hname.read _ _)).trans ?_
        refine (bind_of_ok (take_cons (layout.kind_word .FROM) _ _)).trans ?_
        exact bind_of_ok (hpath.read _ _)
  | exportName token name =>
      obtain ⟨htoken, hname⟩ := h
      refine ⟨token, _, Statement.afterExport token, rfl, ?_, fun ks => ?_⟩
      · simp only [Statement.body?, htoken]
      · exact bind_of_ok (hname.read _ _)
  | setVariable token name assigned =>
      obtain ⟨htoken, hname, hvalue⟩ := h
      refine ⟨token, _, Statement.afterAt token, rfl, ?_, fun ks => ?_⟩
      · simp only [Statement.body?, htoken]
      · refine (bind_of_ok (hname.read _ _)).trans ?_
        refine (bind_of_ok (accept?_of_avoids (avoids_cons (by simp)))).trans ?_
        refine (bind_of_ok (take_cons (layout.kind_mark .equal) _ _)).trans ?_
        exact bind_of_ok (read_value hvalue _)
  | defineVariable typed assigned =>
      obtain ⟨⟨hsign, hname, htype⟩, hvalue⟩ := h
      refine ⟨typed.token, _, Statement.afterAt typed.token, rfl, ?_, fun ks => ?_⟩
      · simp only [Statement.body?, hsign]
      · refine (bind_of_ok (hname.read _ _)).trans ?_
        refine (bind_of_ok (accept?_cons (layout.kind_mark .colon) _)).trans ?_
        refine (bind_of_ok (htype.read _ _)).trans ?_
        refine (bind_of_ok (take_cons (layout.kind_mark .equal) _ _)).trans ?_
        exact bind_of_ok (read_value hvalue _)

theorem readStatements_statements (final : Token) {list : List Statement}
    (h : ∀ statement ∈ list, statement.WellFormed) :
    Script.readStatements final (layout.statements list) = (list, []) := by
  induction list with
  | nil => simp [statements, Script.readStatements]
  | cons statement rest ih =>
      obtain ⟨hstatement, hrest⟩ := List.forall_mem_cons.mp h
      obtain ⟨t, us, p, hbody, hp, hread⟩ := layout.read_body hstatement
      have hwritten : layout.statements (statement :: rest) =
          t :: (us ++ layout.mark .semicolon :: layout.statements rest) := by
        simp [statements, hbody]
      have hround : Script.round final t (us ++ layout.mark .semicolon :: layout.statements rest) =
          (.ok statement, layout.statements rest) := by
        refine Script.round_eq_ok_iff.mpr ⟨p, hp, (bind_of_ok (hread _)).trans ?_⟩
        exact bind_of_ok (take_cons (layout.kind_mark .semicolon) _ _)
      rw [hwritten, Script.readStatements_of_ok hround, ih hrest]

/-- No token of a statement marks the end of the text. -/
theorem not_isFinal_of_mem_statements {list : List Statement}
    (h : ∀ statement ∈ list, statement.WellFormed) :
    ∀ t ∈ layout.statements list, ¬Script.isFinal t := by
  intro t ht
  have hread := layout.readStatements_statements (layout.glue .endOfFile) h
  have hword := Script.matches_of_no_errors (layout.statements list) (congrArg Prod.snd hread)
  have hscript : Grammar.Matches (.symbol .script) (layout.statements list) := .symbol hword
  have hkind : t.kind ≠ .endOfFile := fun heq =>
    hscript.endOfFile_not_mem (heq ▸ List.mem_map_of_mem ht)
  simpa [Script.isFinal] using hkind

end Layout

/-- Reading undoes writing. A well-formed script that is written in any layout is read without an
error, and its statements come back as they were. The token of the script is the first one that was
written. -/
theorem parse_layout_script (layout : Layout) (s : Script) (h : s.WellFormed) :
    ∃ first, (layout.script s).head? = some first ∧
      parse (layout.script s) = ⟨⟨first, s.statements⟩, []⟩ := by
  have hfinal : Script.isFinal (layout.glue .endOfFile) := by
    simp [Script.isFinal, layout.kind_glue]
  have hnot := layout.not_isFinal_of_mem_statements h
  have htoken : Script.finalToken (layout.script s) = layout.glue .endOfFile := by
    rw [Layout.script, Script.finalToken_append hnot (List.cons_ne_nil _ _)]
    simp [Script.finalToken, hfinal]
  have hbody : (layout.script s).takeWhile (fun t => !Script.isFinal t) =
      layout.statements s.statements := by
    rw [Layout.script, List.takeWhile_append_of_pos (by simpa using hnot)]
    simp [hfinal]
  refine ⟨(layout.statements s.statements).headD (layout.glue .endOfFile), ?_, ?_⟩
  · rw [Layout.script]
    cases layout.statements s.statements <;> rfl
  · rw [parse, htoken, hbody, layout.readStatements_statements _ h]

/-- A chain of joins with a selection and an alias inside, where parentheses stand around every
alias and around every join that is not on the left of another one. -/
theorem parse_layout_script_chain :
    let name : Name := ⟨⟨.identifier, some (.text "a"), .start⟩, "a"⟩
    let condition : Expression := ⟨⟨.expression, some (.text "c"), .start⟩, "c"⟩
    let renamed : Source := .aliased (.plain (.keyword .AS) .start) (.named name) name
    let pair : Source := .join (.plain (.keyword .LEFT) .start) renamed (.named name) condition
    let picked : Source := .select (.plain (.keyword .SELECT) .start)
      (.star (.plain (.punctuation .star) .start)) pair none
    let chain : Source := .join (.plain (.keyword .OUTER) .start) pair picked condition
    let s : Script := ⟨name.token, [.assign name chain]⟩
    let layout : Layout := ⟨fun kind => .plain kind .start, fun _ => rfl,
      fun place source => source.isAliased || (source.isJoin && place != .left)⟩
    s.WellFormed ∧ ∃ first, (layout.script s).head? = some first ∧
      parse (layout.script s) = ⟨⟨first, s.statements⟩, []⟩ := by
  intro name condition renamed pair picked chain s layout
  have hname : name.WellFormed := ⟨rfl, rfl⟩
  have hcondition : condition.WellFormed := ⟨rfl, rfl⟩
  have hpair : pair.WellFormed := ⟨rfl, ⟨rfl, hname, hname⟩, hname, hcondition⟩
  have hpicked : picked.WellFormed :=
    ⟨rfl, rfl, hpair, fun filter hfilter => absurd hfilter (Option.not_mem_none filter)⟩
  have hs : s.WellFormed := by
    intro statement hmem
    rw [List.mem_singleton.mp hmem]
    exact ⟨hname, rfl, hpair, hpicked, hcondition⟩
  exact ⟨hs, parse_layout_script layout s hs⟩

end RecordFlow
