/-
# Layout is irrelevant

Blanks and comments may be put in front of and behind the lexemes of a text that can be scanned. The
text then has the same tokens at other places, and no later stage decides anything by a place: the
same script is read with the same errors, and it is rendered alike. Places reach the rendered text
through lists of fields alone, so a script without one is rendered as the same text.
-/

import RecordFlow.Proofs.Render.Places
import RecordFlow.Proofs.Render.Success
import RecordFlow.Proofs.Token.Lines
import RecordFlow.Proofs.Token.Spacing

namespace RecordFlow

variable {source other : String} {ts us : List Token}

theorem exists_isFinal_of_tokenize (h : tokenize source = .ok ts) : ∃ t ∈ ts, Script.isFinal t := by
  obtain ⟨front, final, rfl, hfinal, -⟩ := tokens_of_tokenize h
  exact ⟨final, List.mem_append_right front List.mem_cons_self, beq_iff_eq.mpr hfinal⟩

/-- Errors that are the same up to places have the same faults and the same wording. -/
theorem wording_of_moved_eq {errors others : List ParseError}
    (h : others.map (ParseError.moved noPlace) = errors.map (ParseError.moved noPlace)) :
    others.map (fun e => (e.fault, e.summary)) = errors.map fun e => (e.fault, e.summary) := by
  have hmoved : ∀ es : List ParseError,
      (es.map (ParseError.moved noPlace)).map (fun e => (e.fault, e.summary)) =
        es.map fun e => (e.fault, e.summary) := by
    intro es
    rw [List.map_map]
    rfl
  rw [← hmoved, h, hmoved]

/-- More trivia around the lexemes of a text changes nothing but places. The tokens keep their kinds
and values. Up to places the same script is read, with the same errors in the same order. With any
library the two scripts both fail to render with one fault, or are both rendered, and as the same
text if they list no fields. -/
theorem respaced_compiles_alike (hts : tokenize source = .ok ts) (h : Respaced source other) :
    ∃ us, tokenize other = .ok us ∧
      us.map Token.classified = ts.map Token.classified ∧
      (parse us).script.moved noPlace = (parse ts).script.moved noPlace ∧
      (parse us).errors.map (fun e => (e.fault, e.summary)) =
        (parse ts).errors.map (fun e => (e.fault, e.summary)) ∧
      ∀ library, Render.Alike (Render.Like ((parse ts).script.listsFields = false))
        (render library (parse ts).script) (render library (parse us).script) := by
  obtain ⟨ts', us, hts', hus, hsame⟩ := h.same_tokens
  obtain rfl : ts' = ts := Except.ok.inj (hts'.symm.trans hts)
  have hparsed := parse_of_classified hsame (exists_isFinal_of_tokenize hts)
    (exists_isFinal_of_tokenize hus)
  have hscript : (parse us).script.moved noPlace = (parse ts').script.moved noPlace :=
    congrArg Parsed.script hparsed
  refine ⟨us, hus, hsame, hscript, ?_, fun library => ?_⟩
  · exact wording_of_moved_eq (congrArg Parsed.errors hparsed)
  · exact render_of_moved_eq noPlace hscript library

/-- Comments that look like tokens, and blanks, around the tokens of a new value for a variable. -/
theorem respaced_compiles_alike_comments :
    let source := "@x=true;"
    let other := "@/*@*/x = // =\ntrue\t;"
    ∃ ts us text, tokenize source = .ok ts ∧ Respaced source other ∧ tokenize other = .ok us ∧
      us.map Token.classified = ts.map Token.classified ∧
      (parse us).script.moved noPlace = (parse ts).script.moved noPlace ∧
      (parse us).errors = [] ∧ render .builtin (parse ts).script = .ok text ∧
      render .builtin (parse us).script = .ok text := by
  intro source other
  have hblank : Scan.Trivia [' '] := .cons (.separator rfl) .nil
  have htab : Scan.Trivia ['\t'] := .cons (.separator rfl) .nil
  have hblock : Scan.Trivia "/*@*/".toList := by
    have hbody : ¬['*', '/'] <:+: ['@'] := by simp [Scan.commentEnd_infix_cons_iff]
    exact (Scan.Trivium.blockComment hbody).trivia
  have hline : Scan.Trivia " // =\n".toList := by
    have hbody : '\n' ∉ [' ', '='] := by decide
    exact .cons (.separator rfl) (Scan.Trivium.lineComment hbody).trivia
  have hword : Scan.IsWord "x".toList := by decide +kernel
  have hrespaced : Respaced source other := by
    refine ⟨[⟨⟨[], _, _, .nil, .mark .atSign⟩, [], _, .nil, hblock⟩,
      ⟨⟨[], _, _, .nil, .name hword (by decide)⟩, [], _, .nil, hblank⟩,
      ⟨⟨[], _, _, .nil, .mark .equal⟩, [], _, .nil, hline⟩,
      ⟨⟨[], _, _, .nil, .truth true⟩, [], _, .nil, htab⟩,
      ⟨⟨[], _, _, .nil, .mark .semicolon⟩, [], [], .nil, .nil⟩], [],
      ⟨trivial, ?_, trivial, ?_, trivial, .complete .nil⟩, ?_, ?_⟩
    · rintro c ⟨⟩
      decide
    · rintro c ⟨⟩
      decide
    · simp [source, Scan.joined, Scan.Cell.text, truthWord, Punctuation.char]
    · simp [other, Scan.Spacing.text, truthWord, Punctuation.char]
  have hscoped : (readScript source).toOption.any fun script => script.WellScoped := by
    decide +kernel
  have hlists : (readScript source).toOption.any fun script => !script.listsFields := by
    decide +kernel
  obtain ⟨text, hcompile⟩ := compile_of_wellScoped Library.builtin_complete hscoped
  obtain ⟨script, hread, htext⟩ := compile_eq_ok_iff.mp hcompile
  rw [hread] at hlists
  obtain ⟨ts, hts, herrors, rfl⟩ := readScript_eq_ok_iff.mp hread
  obtain ⟨us, hus, hsame, hscript, hwording, halike⟩ := respaced_compiles_alike hts hrespaced
  refine ⟨ts, us, text, hts, hrespaced, hus, hsame, hscript, ?_, htext, ?_⟩
  · rwa [herrors, List.map_nil, List.map_eq_nil_iff] at hwording
  · exact (halike .builtin).eq_ok (by simpa [Except.toOption] using hlists) htext

end RecordFlow
