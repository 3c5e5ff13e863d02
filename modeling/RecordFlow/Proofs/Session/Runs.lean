/-
# Whole sessions

A session compiles each entry together with all entries accepted before it. What is accepted is
always a text of whole lines that compiles, so an entry that is dropped is the only one to blame,
and entries that compile as one text are accepted one by one.
-/

import RecordFlow.Proofs.Compile.Extension
import RecordFlow.Session

namespace RecordFlow

namespace Session

variable {library : Library}

theorem feed_of_incomplete {accepted pending line : String}
    (h : isComplete (pending ++ line ++ "\n") = false) :
    feed library ⟨accepted, pending⟩ line = (none, ⟨accepted, pending ++ line ++ "\n"⟩) := by
  simp only [feed, h, if_neg Bool.false_ne_true]

theorem feed_of_ok {accepted pending line text : String}
    (h : isComplete (pending ++ line ++ "\n") = true)
    (hcompile : compile library (accepted ++ (pending ++ line ++ "\n")) = .ok text) :
    feed library ⟨accepted, pending⟩ line =
      (some (.ok text), ⟨accepted ++ (pending ++ line ++ "\n"), ""⟩) := by
  simp only [feed, h, if_true, hcompile]

/-- What a line can do: leave the entry open, have it accepted, or have it dropped. -/
theorem feed_cases (library : Library) (s : Session) (line : String) :
    let entry := s.pending ++ line ++ "\n"
    s.feed library line = (none, ⟨s.accepted, entry⟩) ∨
      (∃ text, compile library (s.accepted ++ entry) = .ok text ∧
        s.feed library line = (some (.ok text), ⟨s.accepted ++ entry, ""⟩)) ∨
      ∃ diagnostics, compile library (s.accepted ++ entry) = .error diagnostics ∧
        s.feed library line = (some (.error diagnostics), ⟨s.accepted, ""⟩) := by
  intro entry
  cases hcomplete : isComplete entry with
  | false => exact .inl (feed_of_incomplete hcomplete)
  | true =>
      cases hcompile : compile library (s.accepted ++ entry) with
      | ok text => exact .inr (.inl ⟨text, rfl, feed_of_ok hcomplete hcompile⟩)
      | error diagnostics =>
          refine .inr (.inr ⟨diagnostics, rfl, ?_⟩)
          simp only [feed, entry, hcomplete, if_true, hcompile]

/-! ## Any history -/

/-- What a user can do to a session. -/
inductive Action
  /-- Give it a line. -/
  | line (text : String)
  /-- Begin anew. -/
  | reset

/-- The session after an action. -/
def act (library : Library) (s : Session) : Action → Session
  | .line text => (s.feed library text).2
  | .reset => fresh

/-- The session after a history of actions, the first one first. -/
def history (library : Library) (actions : List Action) : Session :=
  actions.foldl (act library) fresh

/-- A session in which the accepted text is whole lines that compile, if there are any. -/
structure Sound (library : Library) (s : Session) : Prop where
  wholeLines : Text.WholeLines s.accepted
  compiles : s.accepted = "" ∨ ∃ text, compile library s.accepted = .ok text

theorem sound_fresh : Sound library fresh := ⟨nofun, .inl rfl⟩

theorem Sound.act {s : Session} (h : Sound library s) (action : Action) :
    Sound library (s.act library action) := by
  cases action with
  | reset => exact sound_fresh
  | line text =>
      rw [Session.act]
      rcases feed_cases library s text with hfeed | ⟨out, hcompile, hfeed⟩ | ⟨_, -, hfeed⟩
      · rw [hfeed]
        exact ⟨h.wholeLines, h.compiles⟩
      · rw [hfeed]
        exact ⟨h.wholeLines.append (Text.wholeLines_break _), .inr ⟨out, hcompile⟩⟩
      · rw [hfeed]
        exact ⟨h.wholeLines, h.compiles⟩

theorem sound_history (actions : List Action) : Sound library (history library actions) := by
  have hrun : ∀ s, Sound library s → Sound library (actions.foldl (Session.act library) s) := by
    induction actions with
    | nil => exact fun s h => h
    | cons action actions ih => exact fun s h => ih _ (h.act action)
  exact hrun fresh sound_fresh

/-- In a sound session an entry is dropped for what stands below the accepted text. -/
theorem Sound.line_of_error {s : Session} (h : Sound library s) {entry : String}
    {diagnostics : List Diagnostic}
    (herror : compile library (s.accepted ++ entry) = .error diagnostics) :
    ∀ d ∈ diagnostics, Text.breaks s.accepted < d.position.line := by
  rcases h.compiles with hempty | ⟨text, hcompile⟩
  · rw [hempty]
    exact line_pos_of_compile herror
  · obtain ⟨script, hscript, -⟩ := compile_eq_ok_iff.mp hcompile
    obtain ⟨front, hclosed⟩ := Closed.of_readScript h.wholeLines hscript
    exact hclosed.line_of_compile_append hcompile herror

end Session

/-- In every session, whatever was done to it, the accepted text compiles unless it is empty, and
only an entry that compiles with it changes it. A complete entry is no longer pending. The errors of
an entry that is dropped all stand below the accepted text. -/
theorem session_keeps_accepted (library : Library) (actions : List Session.Action)
    (line : String) :
    let s := Session.history library actions
    let answer := (s.feed library line).1
    let next := (s.feed library line).2
    (s.accepted = "" ∨ ∃ text, compile library s.accepted = .ok text) ∧
      (answer = none → next.accepted = s.accepted) ∧
      (answer ≠ none → next.pending = "") ∧
      ∀ diagnostics, answer = some (.error diagnostics) →
        next.accepted = s.accepted ∧
          ∀ d ∈ diagnostics, Text.breaks s.accepted < d.position.line := by
  intro s answer next
  have hsound : Session.Sound library s := Session.sound_history actions
  refine ⟨hsound.compiles, ?_⟩
  rcases Session.feed_cases library s line with
    hfeed | ⟨out, -, hfeed⟩ | ⟨diagnostics, hcompile, hfeed⟩ <;>
    rw [show answer = _ from congrArg Prod.fst hfeed, show next = _ from congrArg Prod.snd hfeed]
  · exact ⟨fun _ => rfl, nofun, nofun⟩
  · exact ⟨nofun, fun _ => rfl, nofun⟩
  · refine ⟨nofun, fun _ => rfl, fun _ heq => ⟨rfl, ?_⟩⟩
    cases heq
    exact hsound.line_of_error hcompile

/-- An import is accepted. The entry behind it, which exports another name on two lines, is dropped,
and its errors stand on the second line or below. -/
theorem session_keeps_accepted_unbound :
    Session.history .builtin [.line "IMPORT a FROM \"m\";", .line "EXPORT"] =
        ⟨"IMPORT a FROM \"m\";\n", "EXPORT\n"⟩ ∧
      ∃ diagnostics,
        Session.feed .builtin ⟨"IMPORT a FROM \"m\";\n", "EXPORT\n"⟩ "b;" =
          (some (.error diagnostics), ⟨"IMPORT a FROM \"m\";\n", ""⟩) ∧
        ∀ d ∈ diagnostics, 1 < d.position.line := by
  obtain ⟨text, hcompile⟩ := compile_of_wellScoped Library.builtin_complete
    (show (readScript "IMPORT a FROM \"m\";\n").toOption.any (·.WellScoped) by decide +kernel)
  have hline : "" ++ ("" ++ "IMPORT a FROM \"m\";" ++ "\n") = "IMPORT a FROM \"m\";\n" := by decide
  have hfirst : Session.feed .builtin ⟨"", ""⟩ "IMPORT a FROM \"m\";" =
      (some (.ok text), ⟨"IMPORT a FROM \"m\";\n", ""⟩) := by
    rw [← hline] at hcompile ⊢
    exact Session.feed_of_ok (by decide +kernel) hcompile
  have hsecond : Session.feed .builtin ⟨"IMPORT a FROM \"m\";\n", ""⟩ "EXPORT" =
      (none, ⟨"IMPORT a FROM \"m\";\n", "EXPORT\n"⟩) :=
    Session.feed_of_incomplete (by decide +kernel)
  have hs : Session.history .builtin [.line "IMPORT a FROM \"m\";", .line "EXPORT"] =
      ⟨"IMPORT a FROM \"m\";\n", "EXPORT\n"⟩ := by
    rw [Session.history, List.foldl_cons, List.foldl_cons, List.foldl_nil, Session.act,
      Session.act, Session.fresh, hfirst, hsecond]
  have hfails : (Session.feed .builtin ⟨"IMPORT a FROM \"m\";\n", "EXPORT\n"⟩ "b;").1.any
      (·.toOption.isNone) := by decide +kernel
  have hkeeps := session_keeps_accepted .builtin
    [.line "IMPORT a FROM \"m\";", .line "EXPORT"] "b;"
  rw [hs] at hkeeps
  obtain ⟨-, -, hpending, herror⟩ := hkeeps
  rcases hfeed : Session.feed .builtin ⟨"IMPORT a FROM \"m\";\n", "EXPORT\n"⟩ "b;" with
    ⟨_ | diagnostics | text, next⟩ <;> rw [hfeed] at hfails hpending herror
  · exact nomatch hfails
  · obtain ⟨haccepted, hlines⟩ := herror diagnostics rfl
    refine ⟨hs, diagnostics, ?_, hlines⟩
    rw [show next = ⟨next.accepted, next.pending⟩ from rfl, haccepted, hpending nofun]
  · exact nomatch hfails

/-! ## Entries in order -/

namespace Session

variable {library : Library} {accepted pending : String}

/-- Give a session lines one after another: the answers and the session at the end. -/
def feedAll (library : Library) (s : Session) :
    List String → List (Option (Except (List Diagnostic) String)) × Session
  | [] => ([], s)
  | line :: rest =>
      let first := s.feed library line
      let more := feedAll library first.2 rest
      (first.1 :: more.1, more.2)

theorem feedAll_append (s : Session) (lines more : List String) :
    s.feedAll library (lines ++ more) =
      ((s.feedAll library lines).1 ++ ((s.feedAll library lines).2.feedAll library more).1,
        ((s.feedAll library lines).2.feedAll library more).2) := by
  induction lines generalizing s with
  | nil => rfl
  | cons line rest ih => simp only [List.cons_append, feedAll, ih]

/-- The text of lines: each is followed by a line break. -/
def textOf (lines : List String) : String :=
  match lines with
  | [] => ""
  | line :: rest => line ++ "\n" ++ textOf rest

theorem textOf_append (lines more : List String) :
    textOf (lines ++ more) = textOf lines ++ textOf more := by
  induction lines with
  | nil => simp [textOf]
  | cons line rest ih => simp only [List.cons_append, textOf, ih, String.append_assoc]

theorem wholeLines_textOf (lines : List String) : Text.WholeLines (textOf lines) := by
  induction lines with
  | nil => exact nofun
  | cons line rest ih => exact (Text.wholeLines_break line).append ih

/-- The lines of one entry: it is complete with its last line and not before, and the last of its
tokens, if it has any, is a semicolon. -/
structure IsEntry (lines : List String) : Prop where
  incomplete : ∀ n < lines.length, isComplete (textOf (lines.take n)) = false
  complete : isComplete (textOf lines) = true
  closing : ∃ ts, tokenize (textOf lines) = .ok ts ∧ Script.Sealed ts.dropLast

theorem isEntry_iff {lines : List String} :
    IsEntry lines ↔
      (∀ n < lines.length, isComplete (textOf (lines.take n)) = false) ∧
        isComplete (textOf lines) = true ∧
        ∃ ts ∈ (tokenize (textOf lines)).toOption, Script.Sealed ts.dropLast := by
  have hclosing : (∃ ts, tokenize (textOf lines) = .ok ts ∧ Script.Sealed ts.dropLast) ↔
      ∃ ts ∈ (tokenize (textOf lines)).toOption, Script.Sealed ts.dropLast := by
    cases tokenize (textOf lines) <;> simp [Except.toOption]
  rw [← hclosing]
  exact ⟨fun h => ⟨h.incomplete, h.complete, h.closing⟩, fun ⟨h, h', h''⟩ => ⟨h, h', h''⟩⟩

instance : DecidablePred Script.Sealed := fun ts =>
  inferInstanceAs (Decidable (∀ t ∈ ts.getLast?, t.kind = .punctuation .semicolon))

instance : DecidablePred IsEntry := fun _ => decidable_of_iff _ isEntry_iff.symm

/-- The answers to the lines of an entry that is accepted. -/
def acceptance (lines : List String) (text : String) :
    List (Option (Except (List Diagnostic) String)) :=
  List.replicate (lines.length - 1) none ++ [some (.ok text)]

theorem append_textOf_cons (pending line : String) (rest : List String) :
    pending ++ textOf (line :: rest) = pending ++ line ++ "\n" ++ textOf rest := by
  simp only [textOf, String.append_assoc]

/-- Lines that leave their entry incomplete are pending. -/
theorem feedAll_of_incomplete (pending : String) {lines : List String}
    (h : ∀ n ≤ lines.length, 0 < n → isComplete (pending ++ textOf (lines.take n)) = false) :
    feedAll library ⟨accepted, pending⟩ lines =
      (List.replicate lines.length none, ⟨accepted, pending ++ textOf lines⟩) := by
  induction lines generalizing pending with
  | nil => simp [feedAll, textOf]
  | cons line rest ih =>
      have hrest : ∀ n ≤ rest.length,
          isComplete (pending ++ line ++ "\n" ++ textOf (rest.take n)) = false := by
        intro n hn
        rw [← append_textOf_cons, ← List.take_succ_cons]
        exact h (n + 1) (Nat.succ_le_succ hn) (Nat.succ_pos n)
      have hline : isComplete (pending ++ line ++ "\n") = false := by
        have hfirst := hrest 0 (Nat.zero_le _)
        rwa [List.take_zero, textOf, String.append_empty] at hfirst
      rw [feedAll, feed_of_incomplete hline, ih (pending ++ line ++ "\n") fun n hn _ => hrest n hn,
        append_textOf_cons]
      rfl

/-- The lines of an entry that compiles with what is accepted are answered as such. -/
theorem feedAll_entry {lines : List String} {text : String} (hlines : IsEntry lines)
    (h : compile library (accepted ++ textOf lines) = .ok text) :
    feedAll library ⟨accepted, ""⟩ lines =
      (acceptance lines text, ⟨accepted ++ textOf lines, ""⟩) := by
  rcases List.eq_nil_or_concat lines with rfl | ⟨init, last, rfl⟩
  · exact nomatch hlines.complete
  · rw [List.concat_eq_append] at h hlines ⊢
    have hinit : ∀ n ≤ init.length, 0 < n → isComplete ("" ++ textOf (init.take n)) = false := by
      intro n hn _
      have hopen := hlines.incomplete n (by simp; omega)
      rw [List.take_append_of_le_length hn] at hopen
      rwa [String.empty_append]
    have htext : textOf (init ++ [last]) = "" ++ textOf init ++ last ++ "\n" := by
      rw [textOf_append, append_textOf_cons, textOf, String.append_empty, String.empty_append]
    have hcomplete := hlines.complete
    rw [htext] at h hcomplete ⊢
    rw [feedAll_append, feedAll_of_incomplete "" hinit, feedAll, feed_of_ok hcomplete h]
    simp [acceptance, feedAll]

theorem IsEntry.closed {lines : List String} (h : IsEntry lines) :
    ∃ front, Closed (textOf lines) front := by
  obtain ⟨ts, htokens, hsealed⟩ := h.closing
  obtain ⟨front, final, rfl, -, -⟩ := tokens_of_tokenize htokens
  rw [List.dropLast_concat] at hsealed
  exact ⟨front, wholeLines_textOf lines, ⟨final, htokens⟩, hsealed⟩

/-- Entries that compile together with what is accepted are accepted one by one, each with what it
compiles to behind those before it. -/
theorem feedAll_entries {front : List Token} (hclosed : Closed accepted front)
    {entries : List (List String)} (hentries : ∀ lines ∈ entries, IsEntry lines) {out : String}
    (h : compile library (accepted ++ textOf entries.flatten) = .ok out) :
    ∃ texts : List String, texts.length = entries.length ∧
      (∀ k text, texts[k]? = some text →
        compile library (accepted ++ textOf (entries.take (k + 1)).flatten) = .ok text) ∧
      (feedAll library ⟨accepted, ""⟩ entries.flatten).1 =
        (List.zipWith acceptance entries texts).flatten := by
  induction entries generalizing accepted front with
  | nil => exact ⟨[], rfl, by simp, rfl⟩
  | cons lines rest ih =>
      obtain ⟨hlines, hrest⟩ := List.forall_mem_cons.mp hentries
      obtain ⟨behind, hentry⟩ := hlines.closed
      have hnext := hclosed.append hentry
      rw [List.flatten_cons, textOf_append, ← String.append_assoc] at h
      obtain ⟨text, htext⟩ := hnext.compile_of_append h
      obtain ⟨texts, hlength, htexts, hanswers⟩ := ih hnext hrest h
      refine ⟨text :: texts, by rw [List.length_cons, List.length_cons, hlength], ?_, ?_⟩
      · intro k other hother
        rw [List.take_succ_cons, List.flatten_cons, textOf_append, ← String.append_assoc]
        cases k with
        | zero =>
            cases hother
            rw [List.take_zero, List.flatten_nil, textOf, String.append_empty]
            exact htext
        | succ k => exact htexts k other hother
      · rw [List.flatten_cons, feedAll_append, feedAll_entry hlines htext, hanswers]
        rfl

end Session

/-- A session agrees with compilation. If the text of some entries compiles, a fresh session that is
given their lines accepts each entry with its last line and answers no other line. It answers an
entry with what the text of the entries up to this one compiles to, so its last answer is the
compiled text. -/
theorem session_agrees_with_compile (library : Library) (entries : List (List String))
    (hentries : ∀ lines ∈ entries, Session.IsEntry lines) (out : String)
    (h : compile library (Session.textOf entries.flatten) = .ok out) :
    ∃ texts : List String, texts.length = entries.length ∧
      (∀ k text, texts[k]? = some text →
        compile library (Session.textOf (entries.take (k + 1)).flatten) = .ok text) ∧
      (entries ≠ [] → texts.getLast? = some out) ∧
      (Session.fresh.feedAll library entries.flatten).1 =
        (List.zipWith Session.acceptance entries texts).flatten := by
  have hempty : compile library ("" ++ Session.textOf entries.flatten) = .ok out := by
    rwa [String.empty_append]
  obtain ⟨texts, hlength, htexts, hanswers⟩ :=
    Session.feedAll_entries Closed.empty hentries hempty
  simp only [String.empty_append] at htexts
  refine ⟨texts, hlength, htexts, fun hne => ?_, hanswers⟩
  have hpos : 0 < entries.length := List.length_pos_iff.mpr hne
  obtain ⟨last, hlast⟩ : ∃ last, texts.getLast? = some last :=
    ⟨_, List.getLast?_eq_some_getLast (List.ne_nil_of_length_pos (hlength ▸ hpos))⟩
  have hwhole := htexts _ last (List.getLast?_eq_getElem? ▸ hlast)
  rw [hlength, Nat.sub_add_cancel hpos, List.take_length, h] at hwhole
  rw [hlast, Except.ok.inj hwhole]

/-- An import over two lines and an export of the same name, in two entries. -/
theorem session_agrees_with_compile_import_export :
    let entries := [["IMPORT a", "FROM \"m\";"], ["EXPORT a;"]]
    let imported := "import \x7b a as a_0 \x7d from \"m\";"
    let exported := "export \x7b a_0 as a \x7d;"
    let out := Render.builtinText [imported, exported] []
    (∀ lines ∈ entries, Session.IsEntry lines) ∧
      compile .builtin (Session.textOf entries.flatten) = .ok out ∧
      (Session.fresh.feedAll .builtin entries.flatten).1 =
        [none, some (.ok (Render.builtinText [imported] [])), some (.ok out)] := by
  intro entries imported exported out
  have hentries : ∀ lines ∈ entries, Session.IsEntry lines := by decide +kernel
  have hfirst : ((readScript (Session.textOf (entries.take 1).flatten)).toOption.bind fun script =>
      (script.statements.mapM (Render.statement .builtin) .empty).toOption.map id) =
      some ([imported], ⟨["a"], [], 0⟩) := by
    decide +kernel
  have hboth : ((readScript (Session.textOf entries.flatten)).toOption.bind fun script =>
      (script.statements.mapM (Render.statement .builtin) .empty).toOption.map id) =
      some ([imported, exported], ⟨["a"], [], 0⟩) := by
    decide +kernel
  obtain ⟨_, _, _, -, -, hvalues, -, himport⟩ := compile_builtin hfirst
  cases hvalues
  obtain ⟨_, _, _, -, -, hvalues, -, hcompile⟩ := compile_builtin hboth
  cases hvalues
  obtain ⟨_, hlength, htexts, hlast, hanswers⟩ :=
    session_agrees_with_compile .builtin entries hentries out hcompile
  obtain ⟨first, _, rfl⟩ := List.exists_cons_of_length_eq_add_one hlength
  obtain ⟨second, rfl⟩ := List.length_eq_one_iff.mp (Nat.succ.inj hlength)
  cases himport.symm.trans (htexts 0 first rfl)
  obtain rfl : second = out := Option.some.inj (hlast (by decide))
  exact ⟨hentries, hcompile, hanswers⟩

end RecordFlow
