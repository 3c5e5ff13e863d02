/-
# Trees of a text

The script that is read from a text keeps to the text: its nodes stand at tokens of the text, at the
kind of token that goes with each of them, and they say what these tokens carry. This holds also of
a script that was read with errors. Rendering relies on it in one place. It asks the token of a join
for the type of the join, and a join that was read from a text always has one of the four types.
-/

import RecordFlow.Proofs.Compile.Extension
import RecordFlow.Proofs.Compile.Layout
import RecordFlow.Proofs.Render.Complaints

namespace RecordFlow

namespace Render

variable {α : Type} {library : Library}

/-- A result that is no error about the type of a join. -/
def Knows (r : Except RenderError α) : Prop :=
  Fails (fun e => ∀ kind, e.fault ≠ .unknownJoinType kind) r

/-- Where every join stands at one of the four words, all the types of joins are known. -/
theorem knows_render {script : Script} (h : script.WellFormed) : Knows (render library script) := by
  intro e he kind hfault
  have hcomplaint : script.Complaint library e.fault := complains_render library script e he
  rw [hfault] at hcomplaint
  cases hcomplaint with
  | joinType hnode hkind =>
      obtain ⟨hjoin, -⟩ := hnode.wellFormed h
      obtain ⟨type, htype⟩ := joinType_of_isJoinOperator hjoin
      rw [joinType, hkind] at htype
      cases htype

end Render

/-- A script stands at its first token. -/
theorem head?_of_tokenize {source : String} {ts : List Token} (h : tokenize source = .ok ts) :
    ts.head? = some (parse ts).script.token := by
  obtain ⟨front, final, rfl, hfinal, hfront⟩ := tokens_of_tokenize h
  obtain ⟨hbody, hend⟩ := Script.body_append_final hfront hfinal []
  simp only [parse, hbody, hend]
  cases front <;> rfl

/-- Trees of a text are well formed. In the script that is read from a text, with or without errors,
the script stands at the first token of the text. Every other node stands at a token of the text, of
a kind that goes with the node. Names are words that are not reserved, names and literals are what
their tokens carry, a list of fields has a first field and stands where it begins, and no field with
an alias has a second one. Joins stand at one of their four words, so compiling never complains
about the type of a join, whatever the library. -/
theorem tree_of_text_wellFormed (source : String) :
    (∀ ts, tokenize source = .ok ts →
      ts.head? = some (parse ts).script.token ∧
      ∀ node, (parse ts).script.HasNode node →
        node.token ∈ ts ∧ node.token.kind ∈ node.kinds ∧ node.Says ∧ node.Shaped) ∧
    ∀ library diagnostics, compile library source = .error diagnostics →
      ∀ kind position, .render ⟨.unknownJoinType kind, position⟩ ∉ diagnostics := by
  constructor
  · intro ts hts
    refine ⟨head?_of_tokenize hts, fun node hnode => ?_⟩
    obtain ⟨-, hstatements, -⟩ :=
      tokens_of_parse (P := (· ∈ ts)) (fun _ => id) (exists_isFinal_of_tokenize hts)
    have hmem : node.token ∈ ts := hnode.tokens hstatements node.token node.token_mem_tokens
    have hnode := hnode.wellFormed (parse_wellFormed ts)
    exact ⟨hmem, Node.kind_mem_kinds hnode,
      Node.says_of_wellFormed hnode (paired_of_tokenize hts _ hmem), node.shaped⟩
  · intro library diagnostics herror kind position hreport
    rcases compile_eq_error herror with ⟨e, -, rfl⟩ | ⟨ts, -, -, rfl⟩ | ⟨ts, e, -, -, hfail, rfl⟩
    · simp at hreport
    · simp at hreport
    · cases List.mem_singleton.mp hreport
      exact Render.knows_render (parse_wellFormed ts) _ hfail kind rfl

/-- A join of two names that are not bound: the names and the join stand at their tokens, and the
text is refused for a name. -/
theorem tree_of_text_wellFormed_join :
    let source := "a = SELECT * FROM b INNER JOIN c ON \x7b\x7bx\x7d\x7d;"
    let left : Name := ⟨⟨.identifier, some (.text "b"), ⟨1, 19⟩⟩, "b"⟩
    let right : Name := ⟨⟨.identifier, some (.text "c"), ⟨1, 32⟩⟩, "c"⟩
    let join : Source := .join (.plain (.keyword .INNER) ⟨1, 21⟩) (.named left) (.named right)
      ⟨⟨.expression, some (.text "x"), ⟨1, 37⟩⟩, "x"⟩
    let diagnostics : List Diagnostic := [.render ⟨.unresolved "b", ⟨1, 19⟩⟩]
    ∃ ts, tokenize source = .ok ts ∧
      (parse ts).script.HasNode (.source join) ∧ (parse ts).script.HasNode (.name left) ∧
      ts.head? = some ⟨.identifier, some (.text "a"), ⟨1, 1⟩⟩ ∧
      join.token ∈ ts ∧ join.token.kind ∈ (Node.source join).kinds ∧
      left.token ∈ ts ∧ (Node.name left).Says ∧
      compile .builtin source = .error diagnostics ∧
      ∀ kind position, .render ⟨.unknownJoinType kind, position⟩ ∉ diagnostics := by
  intro source left right join diagnostics
  let name : Name := ⟨⟨.identifier, some (.text "a"), ⟨1, 1⟩⟩, "a"⟩
  let select : Source := .select (.plain (.keyword .SELECT) ⟨1, 5⟩)
    (.star (.plain (.punctuation .star) ⟨1, 12⟩)) join none
  have hcomputed : (tokenize source).toOption.map parse =
      some ⟨⟨name.token, [.assign name select]⟩, []⟩ := by
    decide +kernel
  obtain ⟨ts, htokens, hparsed⟩ := Option.map_eq_some_iff.mp hcomputed
  have htokens := ok_of_toOption htokens
  have hcompile : compile .builtin source = .error diagnostics := by
    simp only [compile, readScript, htokens, hparsed]
    rfl
  obtain ⟨hnodes, hknown⟩ := tree_of_text_wellFormed source
  obtain ⟨hhead, hnodes⟩ := hnodes ts htokens
  have hstatement : (parse ts).script.HasNode (.statement (.assign name select)) :=
    .statement (by simp [hparsed])
  have hselect : (parse ts).script.HasNode (.source select) :=
    .child hstatement (by simp [Node.children])
  have hjoin : (parse ts).script.HasNode (.source join) :=
    .child hselect (by simp [Node.children, select])
  have hnamed : (parse ts).script.HasNode (.source (.named left)) :=
    .child hjoin (by simp [Node.children, join])
  have hleft : (parse ts).script.HasNode (.name left) :=
    .child hnamed (by simp [Node.children])
  obtain ⟨hjoinMem, hjoinKind, -, -⟩ := hnodes _ hjoin
  obtain ⟨hleftMem, -, hsays, -⟩ := hnodes _ hleft
  rw [hparsed] at hhead
  exact ⟨ts, htokens, hjoin, hleft, hhead, hjoinMem, hjoinKind, hleftMem, hsays, hcompile,
    hknown .builtin diagnostics hcompile⟩

end RecordFlow
