/-
# Text below compiled text

Whole lines that end with a semicolon are compiled as if nothing stood below them. So they compile
whenever the text compiles that they begin, and once they compile, all that can be wrong with the
text is wrong below them. This holds for each stage: the scanner stops at the line break, the reader
at the semicolon, and the rendering goes on from the state in which the lines have left it.
-/

import RecordFlow.Proofs.Render.Blame
import RecordFlow.Proofs.Render.Run
import RecordFlow.Proofs.Render.Success
import RecordFlow.Proofs.Script.Boundary
import RecordFlow.Proofs.Token.Lines

namespace RecordFlow

namespace Script

variable {final t : Token} {front rest behind : List Token}

theorem Sealed.of_suffix {ts us : List Token} (hsuffix : us <:+ ts) (hne : us ≠ [])
    (h : Sealed us) : Sealed ts := by
  obtain ⟨front, rfl⟩ := hsuffix
  obtain ⟨init, last, rfl⟩ := (List.eq_nil_or_concat us).resolve_left hne
  rw [List.concat_eq_append] at h ⊢
  rw [← List.append_assoc]
  exact sealed_concat _ (h last List.getLast?_concat)

theorem Sealed.cons {semicolon : Token} (h : Sealed behind)
    (hkind : semicolon.kind = .punctuation .semicolon) : Sealed (semicolon :: behind) := by
  cases behind with
  | nil => exact sealed_concat [] hkind
  | cons u behind => exact h.of_suffix (List.suffix_cons semicolon _) (List.cons_ne_nil u behind)

theorem Sealed.append {xs ys : List Token} (hxs : Sealed xs) (hys : Sealed ys) :
    Sealed (xs ++ ys) := by
  cases ys with
  | nil => rwa [List.append_nil]
  | cons t ys => exact hys.of_suffix (List.suffix_append xs _) (List.cons_ne_nil t ys)

theorem Sealed.lower {ts : List Token} (h : Sealed ts) (n : Nat) :
    Sealed (ts.map (Token.lower n)) := by
  intro t ht
  rw [List.getLast?_map] at ht
  obtain ⟨u, hu, rfl⟩ := Option.map_eq_some_iff.mp ht
  exact h u hu

/-- A statement that is read ends with the semicolon in front of what is left. -/
theorem sealed_of_round {statement : Statement}
    (hround : round final t rest = (.ok statement, behind)) (h : Sealed behind) :
    Sealed (t :: rest) := by
  obtain ⟨body, hbody, hclosed⟩ := round_eq_ok_iff.mp hround
  obtain ⟨semicolon, hkind, hrun⟩ := Statement.closed_eq_ok hclosed
  have hmiddle := Production.forward_body hbody rest
  rw [Production.left, hrun] at hmiddle
  exact (h.cons hkind).of_suffix (hmiddle.trans (List.suffix_cons t rest))
    (List.cons_ne_nil semicolon behind)

/-- Tokens that are read without an error end with a semicolon. -/
theorem sealed_of_no_errors {ts : List Token} (h : (readStatements final ts).2 = []) :
    Sealed ts := by
  induction ts using rounds_induction final with
  | nil => exact sealed_nil
  | ok t rest statement behind hround ih =>
      rw [readStatements_of_ok hround] at h
      exact sealed_of_round hround (ih h)
  | error t rest e behind hround ih =>
      rw [readStatements_of_error hround] at h
      exact nomatch h

end Script

/-- A text of whole lines that can be scanned. The tokens `front` are those in front of its end, and
the last of them, if there are any, is a semicolon. -/
structure Closed (text : String) (front : List Token) : Prop where
  wholeLines : Text.WholeLines text
  tokens : ∃ final, tokenize text = .ok (front ++ [final])
  closing : Script.Sealed front

namespace Closed

variable {upper below text : String} {front behind : List Token}

theorem empty : Closed "" [] :=
  ⟨nofun, ⟨.plain .endOfFile .start, tokenize_empty⟩, Script.sealed_nil⟩

/-- A closed text has one token that marks its end, behind all the others. -/
theorem final (h : Closed upper front) :
    ∃ final, tokenize upper = .ok (front ++ [final]) ∧ Script.isFinal final ∧
      ∀ t ∈ front, ¬Script.isFinal t := by
  obtain ⟨final, htokens⟩ := h.tokens
  obtain ⟨others, last, heq, hlast, hothers⟩ := tokens_of_tokenize htokens
  obtain ⟨rfl, hfinal⟩ := List.append_inj' heq rfl
  cases hfinal
  exact ⟨final, htokens, beq_iff_eq.mpr hlast, fun t ht hkind => hothers t ht (eq_of_beq hkind)⟩

/-- A text below a closed one is scanned as it is alone, only further down. -/
theorem tokenize_append (h : Closed upper front) (below : String) :
    tokenize (upper ++ below) =
      match tokenize below with
      | .ok us => .ok (front ++ us.map (Token.lower (Text.breaks upper)))
      | .error e => .error (e.lower (Text.breaks upper)) := by
  obtain ⟨final, htokens⟩ := h.tokens
  have happend : tokenize (upper ++ below) = _ :=
    RecordFlow.tokenize_append htokens h.wholeLines
  rw [List.dropLast_concat] at happend
  exact happend

/-- What is found below a closed text is found on the lines below it. -/
theorem line_of_tokenize_append (h : Closed upper front) (below : String) :
    (∃ e, tokenize (upper ++ below) = .error e ∧ Text.breaks upper < e.position.line) ∨
      ∃ vs, tokenize (upper ++ below) = .ok (front ++ vs) ∧
        (∀ t ∈ vs, Text.breaks upper < t.position.line) ∧ ∃ t ∈ vs, Script.isFinal t := by
  obtain ⟨htokens, herror⟩ := line_pos_of_tokenize below
  cases hbelow : tokenize below with
  | error e =>
      refine .inl ⟨e.lower (Text.breaks upper), ?_, Nat.lt_add_of_pos_left (herror e hbelow)⟩
      rw [h.tokenize_append, hbelow]
  | ok us =>
      obtain ⟨others, final, rfl, hfinal, -⟩ := tokens_of_tokenize hbelow
      refine .inr ⟨_, by rw [h.tokenize_append, hbelow], List.forall_mem_map.mpr fun t ht => ?_,
        final.lower _, List.mem_map_of_mem (List.mem_append_right others List.mem_cons_self),
        beq_iff_eq.mpr hfinal⟩
      exact Nat.lt_add_of_pos_left (htokens _ hbelow t ht)

theorem append (h : Closed upper front) (hbelow : Closed below behind) :
    Closed (upper ++ below) (front ++ behind.map (Token.lower (Text.breaks upper))) := by
  obtain ⟨final, htokens⟩ := hbelow.tokens
  constructor
  · exact h.wholeLines.append hbelow.wholeLines
  · refine ⟨final.lower (Text.breaks upper), ?_⟩
    rw [h.tokenize_append, htokens]
    simp
  · exact h.closing.append (hbelow.closing.lower _)

/-- Whole lines that can be read are closed. -/
theorem of_readScript {script : Script} (hlines : Text.WholeLines text)
    (h : readScript text = .ok script) : ∃ front, Closed text front := by
  obtain ⟨ts, htokens, herrors, -⟩ := readScript_eq_ok_iff.mp h
  obtain ⟨front, final, rfl, hfinal, hfront⟩ := tokens_of_tokenize htokens
  rw [parse, (Script.body_append_final hfront hfinal []).1] at herrors
  exact ⟨front, hlines, ⟨final, htokens⟩, Script.sealed_of_no_errors herrors⟩

/-- What stands below a closed text is read as a script of its own. -/
theorem parse_append (h : Closed upper front) (vs : List Token) :
    ∃ final token, tokenize upper = .ok (front ++ [final]) ∧
      (parse (front ++ vs)).script = ⟨token,
        (parse (front ++ [final])).script.statements ++ (parse vs).script.statements⟩ ∧
      (parse (front ++ vs)).errors = (parse (front ++ [final])).errors ++ (parse vs).errors := by
  obtain ⟨final, htokens, hfinal, hfront⟩ := h.final
  have hall := Script.readStatements_finalToken_append hfront h.closing vs
  have halone := Script.readStatements_finalToken_append hfront h.closing [final]
  have hend : [final].takeWhile (fun t => !Script.isFinal t) = [] := by simp [hfinal]
  simp only [hend, Script.readStatements, List.append_nil] at halone
  refine ⟨final, (parse (front ++ vs)).script.token, htokens, ?_, ?_⟩
  · simp only [parse, hall, halone]
  · simp only [parse, hall, halone]

end Closed

/-- What holds of all the tokens of a text, its end included, holds of all the tokens of what is
read and of all that are blamed. -/
theorem tokens_of_parse {P : Token → Prop} {ts : List Token} (hts : ∀ t ∈ ts, P t)
    (hfinal : ∃ t ∈ ts, Script.isFinal t) :
    P (parse ts).script.token ∧
      (∀ st ∈ (parse ts).script.statements, ∀ t ∈ st.tokens, P t) ∧
      ∀ e ∈ (parse ts).errors, P e.found := by
  have hend : P (Script.finalToken ts) := by
    unfold Script.finalToken
    cases hfind : ts.find? Script.isFinal with
    | some t => exact hts t (List.mem_of_find?_eq_some hfind)
    | none =>
        obtain ⟨t, ht, hkind⟩ := hfinal
        exact absurd hkind (List.find?_eq_none.mp hfind t ht)
  have hbody : ∀ t ∈ ts.takeWhile fun t => !Script.isFinal t, P t := fun t ht =>
    hts t ((List.takeWhile_sublist _).subset ht)
  refine ⟨?_, Script.tokens_of_readStatements hend hbody⟩
  unfold parse
  cases hhead : ts.takeWhile fun t => !Script.isFinal t with
  | nil => exact hend
  | cons t rest => exact hbody t (hhead ▸ List.mem_cons_self)

namespace Render

variable {P : Token → Prop} {library : Library}

/-- A script is blamed where one of its statements stands, or where it begins. -/
theorem blames_render {s : Script} (htoken : P s.token)
    (h : ∀ st ∈ s.statements, ∀ t ∈ st.tokens, P t) : Blames P (render library s) := by
  rw [render_eq]
  exact blames_bind (blames_statements h _) fun _ => blames_snippet htoken

/-- Behind statements that can be rendered, a script is blamed where one of the others stands. -/
theorem blames_render_append {place token : Token} {earlier statements : List Statement}
    {text : String} (hearlier : render library ⟨place, earlier⟩ = .ok text)
    (h : ∀ st ∈ statements, ∀ t ∈ st.tokens, P t) :
    Blames P (render library ⟨token, earlier ++ statements⟩) := by
  rw [render_eq] at hearlier
  obtain ⟨⟨texts, next⟩, hrun, hfinish⟩ := ok_of_bind hearlier
  rw [render_eq, mapM_append_eq, hrun]
  apply blames_bind
  · change Blames P (statements.mapM (statement library) next >>= _)
    exact blames_bind (blames_statements h next) fun _ => blames_ok _
  · intro r
    obtain ⟨other, hother⟩ := finish_of_ok hfinish token r
    rw [hother]
    exact blames_ok other

end Render

section Compile

variable {library : Library} {upper below text : String} {front : List Token}
  {diagnostics : List Diagnostic}

/-- A failure is the complaint of one stage: the scan's, all of the reader's, or the rendering's. -/
theorem compile_eq_error {source : String} (h : compile library source = .error diagnostics) :
    (∃ e, tokenize source = .error e ∧ diagnostics = [.lex e]) ∨
      (∃ ts, tokenize source = .ok ts ∧ (parse ts).errors ≠ [] ∧
        diagnostics = (parse ts).errors.map .parse) ∨
      ∃ ts e, tokenize source = .ok ts ∧ (parse ts).errors = [] ∧
        render library (parse ts).script = .error e ∧ diagnostics = [.render e] := by
  unfold compile readScript at h
  cases htokens : tokenize source with
  | error e =>
      simp only [htokens] at h
      cases h
      exact .inl ⟨e, rfl, rfl⟩
  | ok ts =>
      cases herrors : (parse ts).errors with
      | cons e errors =>
          simp only [htokens, herrors] at h
          cases h
          exact .inr (.inl ⟨ts, rfl, by simp [herrors], by rw [herrors]⟩)
      | nil =>
          simp only [htokens, herrors] at h
          cases hrender : render library (parse ts).script with
          | ok text =>
              simp only [hrender] at h
              exact nomatch h
          | error e =>
              simp only [hrender] at h
              cases h
              exact .inr (.inr ⟨ts, e, rfl, herrors, hrender, rfl⟩)

/-- Every complaint about a text stands where its scan failed or where it has a token. -/
theorem position_of_compile {source : String} (h : compile library source = .error diagnostics) :
    ∀ d ∈ diagnostics,
      (∃ e, tokenize source = .error e ∧ d.position = e.position) ∨
        ∃ ts t, tokenize source = .ok ts ∧ t ∈ ts ∧ d.position = t.position := by
  have hread : ∀ ts, tokenize source = .ok ts → _ := fun ts hts =>
    tokens_of_parse (P := (· ∈ ts)) (fun _ => id) <| by
      obtain ⟨front, final, rfl, hfinal, -⟩ := tokens_of_tokenize hts
      exact ⟨final, List.mem_append_right front List.mem_cons_self, beq_iff_eq.mpr hfinal⟩
  rcases compile_eq_error h with
    ⟨e, htokens, rfl⟩ | ⟨ts, htokens, -, rfl⟩ | ⟨ts, e, htokens, -, hrender, rfl⟩
  · intro d hd
    rw [List.mem_singleton.mp hd]
    exact .inl ⟨e, htokens, rfl⟩
  · intro d hd
    obtain ⟨e, he, rfl⟩ := List.mem_map.mp hd
    exact .inr ⟨ts, e.found, htokens, (hread ts htokens).2.2 e he, rfl⟩
  · intro d hd
    rw [List.mem_singleton.mp hd]
    obtain ⟨htoken, hstatements, -⟩ := hread ts htokens
    obtain ⟨t, ht, hposition⟩ := Render.blames_render htoken hstatements e hrender
    exact .inr ⟨ts, t, htokens, ht, hposition⟩

/-- Closed lines compile whenever the text compiles that they begin. -/
theorem Closed.compile_of_append (h : Closed upper front)
    (hall : compile library (upper ++ below) = .ok text) :
    ∃ other, compile library upper = .ok other := by
  obtain ⟨_, hscript, hrender⟩ := compile_eq_ok_iff.mp hall
  obtain ⟨ts, htokens, hnone, rfl⟩ := readScript_eq_ok_iff.mp hscript
  rcases h.line_of_tokenize_append below with ⟨e, hscan, -⟩ | ⟨vs, hscan, -, -⟩
  · exact nomatch hscan.symm.trans htokens
  · cases hscan.symm.trans htokens
    obtain ⟨final, token, hupper, hsplit, herrors⟩ := h.parse_append vs
    rw [herrors, List.append_eq_nil_iff] at hnone
    rw [hsplit] at hrender
    obtain ⟨other, hother⟩ := Render.render_of_append hrender
      (parse (front ++ [final])).script.token
    have hread : readScript upper = .ok (parse (front ++ [final])).script :=
      readScript_eq_ok_iff.mpr ⟨_, hupper, hnone.1, rfl⟩
    exact ⟨other, compile_eq_ok_iff.mpr ⟨_, hread, hother⟩⟩

theorem line_pos_of_compile {source : String} (h : compile library source = .error diagnostics) :
    ∀ d ∈ diagnostics, 0 < d.position.line := by
  obtain ⟨htokens, herrors⟩ := line_pos_of_tokenize source
  intro d hd
  rcases position_of_compile h d hd with ⟨e, he, hplace⟩ | ⟨ts, t, hts, ht, hplace⟩
  · rw [hplace]
    exact herrors e he
  · rw [hplace]
    exact htokens ts hts t ht

/-- Once closed lines compile, every complaint about a text that they begin stands below them. -/
theorem Closed.line_of_compile_append (h : Closed upper front)
    (hupper : compile library upper = .ok text)
    (hall : compile library (upper ++ below) = .error diagnostics) :
    ∀ d ∈ diagnostics, Text.breaks upper < d.position.line := by
  obtain ⟨_, hscript, hrender⟩ := compile_eq_ok_iff.mp hupper
  obtain ⟨ts, htokens, hnone, rfl⟩ := readScript_eq_ok_iff.mp hscript
  intro d hd
  rcases h.line_of_tokenize_append below with ⟨e, hscan, hline⟩ | ⟨vs, hscan, hline, hend⟩
  · rcases compile_eq_error hall with ⟨_, he, rfl⟩ | ⟨_, hts, -⟩ | ⟨_, _, hts, -⟩
    · cases hscan.symm.trans he
      rw [List.mem_singleton.mp hd]
      exact hline
    · exact nomatch hscan.symm.trans hts
    · exact nomatch hscan.symm.trans hts
  · obtain ⟨final, token, hfinal, hsplit, herrors⟩ := h.parse_append vs
    cases htokens.symm.trans hfinal
    rw [hnone, List.nil_append] at herrors
    obtain ⟨-, hbelow, hfound⟩ := tokens_of_parse hline hend
    rcases compile_eq_error hall with ⟨_, he, -⟩ | ⟨_, hts, -, rfl⟩ | ⟨_, e, hts, -, hfail, rfl⟩
    · exact nomatch hscan.symm.trans he
    · cases hscan.symm.trans hts
      rw [herrors] at hd
      obtain ⟨e, he, rfl⟩ := List.mem_map.mp hd
      exact hfound e he
    · cases hscan.symm.trans hts
      rw [hsplit] at hfail
      obtain ⟨t, ht, hplace⟩ := Render.blames_render_append hrender hbelow e hfail
      rw [List.mem_singleton.mp hd, show (Diagnostic.render e).position = t.position from hplace]
      exact ht

end Compile

end RecordFlow
