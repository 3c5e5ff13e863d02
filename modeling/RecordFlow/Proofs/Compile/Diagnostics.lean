/-
# The places of diagnostics

A text that does not compile gets complaints from one stage alone. Every complaint stands somewhere
in the text: where a lexeme begins, behind the whole text, or, when the scan fails, where what is at
fault begins. The scan and the rendering complain once. The reader may complain more often, and then
each complaint stands behind the one before.
-/

import RecordFlow.Proofs.Compile.Extension
import RecordFlow.Proofs.Script.Order
import RecordFlow.Proofs.Token.Fault
import RecordFlow.Proofs.Token.Order

namespace RecordFlow

variable {source : String} {ts : List Token} {library : Library} {diagnostics : List Diagnostic}

/-- The text has the complaint: it is about an error of the scan that stands in the text, or a token
of the text stands at its place, the one for the end included. -/
def Diagnostic.StandsIn (source : String) : Diagnostic → Prop
  | lex e => tokenize source = .error e ∧ e.StandsIn source
  | d => ∃ ts t, tokenize source = .ok ts ∧ t ∈ ts ∧ t.StandsIn source ∧ d.position = t.position

/-- The tokens that the reader blames are tokens of the text, in their order. -/
theorem found_sublist_of_tokenize (h : tokenize source = .ok ts) :
    ((parse ts).errors.map ParseError.found).Sublist ts := by
  obtain ⟨front, final, rfl, hfinal, hfront⟩ := tokens_of_tokenize h
  obtain ⟨hbody, hend⟩ := Script.body_append_final hfront hfinal []
  rw [parse, hbody, hend]
  exact (Script.found_sublist_blamable final front).trans
    ((Script.blamable_sublist front).append_right [final])

theorem standsIn_of_compile (h : compile library source = .error diagnostics) :
    ∀ d ∈ diagnostics, d.StandsIn source := by
  have hplaced := position_of_compile h
  rcases compile_eq_error h with
    ⟨e, htokens, rfl⟩ | ⟨ts, htokens, -, rfl⟩ | ⟨ts, e, htokens, -, -, rfl⟩
  · exact List.forall_mem_singleton.mpr ⟨htokens, standsIn_of_tokenize_error htokens⟩
  · refine List.forall_mem_map.mpr fun e he => ?_
    have hfound : e.found ∈ ts :=
      (found_sublist_of_tokenize htokens).subset (List.mem_map_of_mem he)
    exact ⟨ts, e.found, htokens, hfound, standsIn_of_tokenize htokens _ hfound, rfl⟩
  · refine List.forall_mem_singleton.mpr ?_
    rcases hplaced _ List.mem_cons_self with ⟨_, herror, -⟩ | ⟨us, t, hus, ht, hposition⟩
    · exact nomatch herror.symm.trans htokens
    · exact ⟨us, t, hus, ht, standsIn_of_tokenize hus t ht, hposition⟩

/-- One complaint stands behind the other. -/
theorem pairwise_of_compile (h : compile library source = .error diagnostics) :
    (diagnostics.map Diagnostic.position).Pairwise Position.Precedes := by
  rcases compile_eq_error h with ⟨e, -, rfl⟩ | ⟨ts, htokens, -, rfl⟩ | ⟨ts, e, -, -, -, rfl⟩
  · exact List.pairwise_singleton _ _
  · have hfound := (pairwise_of_tokenize htokens).sublist (found_sublist_of_tokenize htokens)
    rw [List.pairwise_map] at hfound ⊢
    rw [List.pairwise_map]
    exact hfound
  · exact List.pairwise_singleton _ _

/-- A text that does not compile gets complaints, all from one stage and only one unless the reader
complains. Each of them stands in the text, and they stand one behind the other, so that no token is
blamed twice. -/
theorem diagnostics_placed_and_ordered (library : Library) (source : String)
    (diagnostics : List Diagnostic) (h : compile library source = .error diagnostics) :
    diagnostics ≠ [] ∧
      (∃ stage : Stage, (∀ d ∈ diagnostics, d.stage = stage) ∧
        (stage ≠ .parse → diagnostics.length = 1)) ∧
      (∀ d ∈ diagnostics, d.StandsIn source) ∧
      (diagnostics.map Diagnostic.position).Pairwise Position.Precedes := by
  have hstage : diagnostics ≠ [] ∧ ∃ stage : Stage, (∀ d ∈ diagnostics, d.stage = stage) ∧
      (stage ≠ .parse → diagnostics.length = 1) := by
    rcases compile_eq_error h with ⟨e, -, rfl⟩ | ⟨ts, -, herrors, rfl⟩ | ⟨ts, e, -, -, -, rfl⟩
    · exact ⟨List.cons_ne_nil _ _, .lex, List.forall_mem_singleton.mpr rfl, fun _ => rfl⟩
    · refine ⟨fun hnone => herrors (List.map_eq_nil_iff.mp hnone), .parse, ?_, absurd rfl⟩
      exact List.forall_mem_map.mpr fun _ _ => rfl
    · exact ⟨List.cons_ne_nil _ _, .render, List.forall_mem_singleton.mpr rfl, fun _ => rfl⟩
  exact ⟨hstage.1, hstage.2, standsIn_of_compile h, pairwise_of_compile h⟩

/-- The reader blames a word, goes on with a statement that begins with this word, and blames a mark
of that. -/
theorem diagnostics_placed_and_ordered_resumed :
    let source := "x = EXPORT y = ;"
    let offer : Token := .plain (.keyword .EXPORT) ⟨1, 5⟩
    let equal : Token := .plain (.punctuation .equal) ⟨1, 14⟩
    let diagnostics : List Diagnostic :=
      [.parse ⟨.expected .source, offer⟩, .parse ⟨.expected .semicolon, equal⟩]
    compile .builtin source = .error diagnostics ∧
      (∀ d ∈ diagnostics, d.StandsIn source) ∧
      (diagnostics.map Diagnostic.position).Pairwise Position.Precedes := by
  intro source offer equal diagnostics
  let ts : List Token := [⟨.identifier, some (.text "x"), ⟨1, 1⟩⟩,
    .plain (.punctuation .equal) ⟨1, 3⟩, offer, ⟨.identifier, some (.text "y"), ⟨1, 12⟩⟩, equal,
    .plain (.punctuation .semicolon) ⟨1, 16⟩, .plain .endOfFile ⟨1, 17⟩]
  have htokens : tokenize source = .ok ts := tokenize_eq_ok_iff.mpr (by decide +kernel)
  have herrors : (parse ts).errors =
      [⟨.expected .source, offer⟩, ⟨.expected .semicolon, equal⟩] := by decide +kernel
  have hfails : compile .builtin source = .error diagnostics := by
    simp only [compile, readScript, htokens, herrors]
    rfl
  obtain ⟨-, -, hplaced, hordered⟩ := diagnostics_placed_and_ordered .builtin source _ hfails
  exact ⟨hfails, hplaced, hordered⟩

end RecordFlow
