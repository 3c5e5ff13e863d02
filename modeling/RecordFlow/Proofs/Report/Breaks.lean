/-
# Line breaks in reports

The tokens of a script and the diagnostics of a script are reported with a line for each item, place
first. The reports show payloads as the script has them, and a string or an embedded expression may
run over several lines. Such an item runs over as many lines in a report. No other part of a report
has a line break: not the names of kinds, not the wording of an error, not a name or a number that
it quotes, and not what a library says that has a snippet for every role.
-/

import Mathlib.Data.List.DropRight
import RecordFlow.Proofs.Compile.Extension
import RecordFlow.Proofs.Compile.Layout
import RecordFlow.Proofs.Decimal.Digits
import RecordFlow.Proofs.Render.Complaints
import RecordFlow.Proofs.Report.Listing
import RecordFlow.Proofs.Token.Fault
import RecordFlow.Report

namespace RecordFlow

namespace Text

theorem trimEnd_eq_rdropWhile (cs : List Char) : trimEnd cs = cs.rdropWhile isBlank := rfl

theorem trimEnd_append (xs ys : List Char) :
    trimEnd (xs ++ ys) = if trimEnd ys = [] then trimEnd xs else xs ++ trimEnd ys := by
  unfold trimEnd
  rw [List.reverse_append, List.dropWhile_append]
  by_cases hblank : ys.reverse.dropWhile isBlank = []
  · simp [hblank]
  · simp [hblank]

theorem not_mem_trimEnd {c : Char} {cs : List Char} (h : c ∉ cs) : c ∉ trimEnd cs := by
  rw [trimEnd_eq_rdropWhile]
  exact fun hmem => h ((List.rdropWhile_prefix isBlank cs).subset hmem)

/-- Behind characters without a line break, trimming keeps the line breaks of what is trimmed. -/
theorem count_trimEnd_append {front value : List Char} (hfront : '\n' ∉ front)
    (hvalue : '\n' ∉ value ∨ trimEnd value = value) :
    (trimEnd (front ++ value)).count '\n' = value.count '\n' := by
  rcases hvalue with hnone | htrimmed
  · rw [List.count_eq_zero.mpr (not_mem_trimEnd (List.not_mem_append hfront hnone)),
      List.count_eq_zero.mpr hnone]
  · rw [trimEnd_append, htrimmed]
    split
    · next hnil => rw [hnil, List.count_eq_zero.mpr (not_mem_trimEnd hfront), List.count_nil]
    · rw [List.count_append, List.count_eq_zero.mpr hfront, Nat.zero_add]

/-! ## Texts of one line -/

/-- Characters of a class without the line break have none. -/
theorem break_not_mem {p : Char → Bool} {cs : List Char} (hp : p '\n' = false)
    (h : ∀ c ∈ cs, p c) : '\n' ∉ cs := by
  intro hmem
  have hbreak := h '\n' hmem
  rw [hp] at hbreak
  exact nomatch hbreak

theorem breaks_of_forall {p : Char → Bool} {text : String} (hp : p '\n' = false)
    (h : ∀ c ∈ text.toList, p c) : breaks text = 0 :=
  breaks_eq_zero_iff.mpr (break_not_mem hp h)

/-- A text has the line breaks of what stands in it between texts of one line. -/
theorem breaks_between {front back : String} (hfront : breaks front = 0) (hback : breaks back = 0)
    (text : String) : breaks (front ++ text ++ back) = breaks text := by
  rw [breaks_append, breaks_append, hfront, hback, Nat.zero_add, Nat.add_zero]

theorem isBlank_of_isDigit {c : Char} (h : c.isDigit) : isBlank c = false := by
  have hcode : 48 ≤ c.toNat ∧ c.toNat ≤ 57 := by
    simpa [Char.isDigit, UInt32.le_iff_toNat_le] using h
  simp only [isBlank, Ranges.contains, blankRanges, Ranges.holds]
  grind

end Text

theorem Scan.breaks_of_isWord {name : String} (h : IsWord name.toList) : Text.breaks name = 0 :=
  Text.breaks_of_forall (by decide +kernel) h.isWordChar.2

theorem Decimal.breaks_text (d : Decimal) : Text.breaks d.text = 0 := by
  have hdigits : ∀ c ∈ d.digitChars, c.isDigit || c == '.' := by
    intro c hc
    rw [Bool.or_eq_true, beq_iff_eq]
    unfold digitChars at hc
    split at hc
    · exact .inl (isDigit_of_mem_toDigits hc)
    · rcases List.mem_append.mp hc with hwhole | hrest
      · exact .inl (isDigit_of_mem_toDigits hwhole)
      · rcases List.mem_cons.mp hrest with hpoint | hfraction
        · exact .inr hpoint
        · exact .inl (isDigit_of_mem_paddedDigits hfraction)
  have hmem : '\n' ∉ d.digitChars := Text.break_not_mem (by decide) hdigits
  rw [Text.breaks_eq_zero_iff, text, String.toList_ofList]
  split
  · simp [hmem]
  · exact hmem

namespace Position

theorem toList_text (p : Position) :
    p.text.toList = Nat.toDigits 10 p.line ++ ':' :: Nat.toDigits 10 p.column := by
  have htext : p.text = toString p.line ++ ":" ++ toString p.column := rfl
  have hcolon : ":".toList = [':'] := rfl
  simp [htext, hcolon, Nat.toString_eq_repr, Nat.toList_repr]

theorem breaks_text (p : Position) : Text.breaks p.text = 0 := by
  have hdigits : ∀ n, '\n' ∉ Nat.toDigits 10 n := fun n =>
    Text.break_not_mem (by decide) fun _ => Decimal.isDigit_of_mem_toDigits
  rw [Text.breaks_eq_zero_iff, toList_text]
  simp [hdigits]

/-- A place ends with a digit. -/
theorem trimEnd_text (p : Position) : Text.trimEnd p.text.toList = p.text.toList := by
  have hcolumn : Nat.toDigits 10 p.column ≠ [] := Nat.toDigits_ne_nil
  obtain ⟨init, last, hlast⟩ := (List.eq_nil_or_concat _).resolve_left hcolumn
  have hdigit : last.isDigit := Decimal.isDigit_of_mem_toDigits (n := p.column) (by simp [hlast])
  have hblank : ¬Text.isBlank last := by simp [Text.isBlank_of_isDigit hdigit]
  rw [toList_text, hlast, List.concat_eq_append, ← List.cons_append, ← List.append_assoc,
    Text.trimEnd_eq_rdropWhile, List.rdropWhile_concat_neg _ _ _ hblank]

end Position

namespace TokenKind

theorem breaks_name (kind : TokenKind) : Text.breaks kind.name = 0 := by
  cases kind with
  | punctuation mark => cases mark <;> rfl
  | keyword word => cases word <;> rfl
  | directive word => cases word <;> rfl
  | _ => rfl

theorem breaks_description (kind : TokenKind) : Text.breaks kind.description = 0 := by
  cases kind with
  | punctuation mark => cases mark <;> rfl
  | keyword word => cases word <;> rfl
  | directive word => cases word <;> rfl
  | _ => rfl

end TokenKind

theorem Expected.breaks_text (what : Expected) : Text.breaks what.text = 0 := by
  cases what <;> rfl

theorem breaks_truthWord (value : Bool) : Text.breaks (truthWord value) = 0 := by
  cases value <;> rfl

/-- The line breaks in the text that a token carries. -/
def Token.breaks (t : Token) : Nat := (t.text?.map Text.breaks).getD 0

namespace Token

theorem breaks_of_value_none {t : Token} (h : t.value = none) : t.breaks = 0 := by
  simp [breaks, text?, h]

theorem breaks_valueText (t : Token) : Text.breaks t.valueText = t.breaks := by
  obtain ⟨kind, value, position⟩ := t
  rcases value with _ | literal
  · rfl
  · cases literal with
    | text value =>
        unfold valueText
        dsimp only
        split
        · exact Text.breaks_between rfl rfl value
        · rfl
    | number value => exact value.breaks_text
    | truth value => exact breaks_truthWord value

theorem breaks_description (t : Token) : Text.breaks t.description = t.breaks := by
  obtain ⟨kind, value, position⟩ := t
  have hkind : ∀ opening, Text.breaks opening = 0 →
      Text.breaks (kind.description ++ opening) = 0 := by
    intro opening hopening
    rw [Text.breaks_append, kind.breaks_description, hopening]
  rcases value with _ | literal
  · exact kind.breaks_description
  · cases literal with
    | text value =>
        unfold description
        dsimp only
        split
        · exact Text.breaks_between (hkind " \"" rfl) rfl value
        · exact Text.breaks_between (hkind " '" rfl) rfl value
    | number value =>
        change Text.breaks (kind.description ++ " " ++ value.text) = 0
        rw [Text.breaks_append, hkind " " rfl, value.breaks_text]
    | truth value =>
        change Text.breaks (kind.description ++ " " ++ truthWord value) = 0
        rw [Text.breaks_append, hkind " " rfl, breaks_truthWord]

end Token

/-- In the tokens of a text, a payload with line breaks does not end with a blank. -/
theorem trimmed_of_tokenize {source : String} {ts : List Token} (h : tokenize source = .ok ts) :
    ∀ t ∈ ts, '\n' ∉ t.valueText.toList ∨
      Text.trimEnd t.valueText.toList = t.valueText.toList := by
  intro t ht
  have hbreaks : t.breaks = 0 → '\n' ∉ t.valueText.toList := fun hzero =>
    Text.breaks_eq_zero_iff.mp (t.breaks_valueText.trans hzero)
  obtain ⟨kind, value, position⟩ := t
  rcases Scan.spelled_of_tokenize h _ ht with ⟨lexeme, hspells⟩ | hend
  · cases hspells with
    | @string raw _ =>
        have hquote : "\"".toList = ['"'] := rfl
        right
        change Text.trimEnd ("\"" ++ raw ++ "\"").toList = ("\"" ++ raw ++ "\"").toList
        rw [String.toList_append, hquote, Text.trimEnd_eq_rdropWhile,
          List.rdropWhile_concat_neg _ _ _ (by decide)]
    | @expression inner _ =>
        right
        change Text.trimEnd (String.ofList (Text.trim inner)).toList =
          (String.ofList (Text.trim inner)).toList
        rw [String.toList_ofList, Text.trim, Text.trimEnd_eq_rdropWhile, Text.trimEnd_eq_rdropWhile,
          List.rdropWhile_idempotent]
    | name hword _ => exact .inl (hbreaks (Scan.breaks_of_isWord hword))
    | _ => exact .inl (hbreaks rfl)
  · cases hend
    exact .inl (hbreaks rfl)

/-- Nothing comes with a directive or with the end of the text. -/
theorem value_none_of_tokenize {source : String} {ts : List Token} (h : tokenize source = .ok ts) :
    ∀ t ∈ ts, t.kind.isDirective ∨ t.kind = .endOfFile → t.value = none := by
  intro t ht hkind
  obtain ⟨kind, value, position⟩ := t
  rcases Scan.spelled_of_tokenize h _ ht with ⟨lexeme, hspells⟩ | hend
  · cases hspells <;> simp_all [TokenKind.isDirective]
  · cases hend
    rfl

namespace Report

/-- The line of a token is its place, some columns of one line, and its payload. -/
theorem toList_tokenLine (t : Token) :
    ∃ columns, '\n' ∉ columns ∧ (tokenLine t).toList =
      Text.trimEnd (t.position.text.toList ++ (columns ++ t.valueText.toList)) := by
  have hname := Text.breaks_eq_zero_iff.mp t.kind.breaks_name
  have hblank : " ".toList = [' '] := rfl
  refine ⟨List.replicate (8 - t.position.text.length) ' ' ++ [' '] ++ (t.kind.name.toList ++
    List.replicate (12 - t.kind.name.length) ' ' ++ [' ']), ?_, ?_⟩
  · simp [hname]
  · simp [tokenLine, padRight, hblank]

theorem tokenLine_begins (t : Token) : t.position.text.toList <+: (tokenLine t).toList := by
  obtain ⟨columns, -, hline⟩ := toList_tokenLine t
  rw [hline, Text.trimEnd_append, t.position.trimEnd_text]
  split
  · exact List.prefix_refl _
  · exact List.prefix_append _ _

theorem breaks_tokenLine {t : Token} (h : '\n' ∉ t.valueText.toList ∨
    Text.trimEnd t.valueText.toList = t.valueText.toList) :
    Text.breaks (tokenLine t) = t.breaks := by
  obtain ⟨columns, hcolumns, hline⟩ := toList_tokenLine t
  have hfront := List.not_mem_append (Text.breaks_eq_zero_iff.mp t.position.breaks_text) hcolumns
  rw [Text.breaks, hline, ← List.append_assoc, Text.count_trimEnd_append hfront h]
  exact t.breaks_valueText

end Report

/-- What is wrong with a text is said on one line. -/
theorem LexFault.breaks_message {fault : LexFault} {cs : List Char} (h : Scan.Offends fault cs) :
    Text.breaks fault.message = 0 := by
  have hdigit : Char.isDigit '\n' = false := rfl
  cases h with
  | directive hletters _ _ =>
      have hletter : Text.isAlphabetic '\n' = false := by decide +kernel
      exact (Text.breaks_between rfl rfl _).trans (Text.breaks_of_forall hletter hletters)
  | integer hdigits _ _ =>
      exact (Text.breaks_between rfl rfl _).trans (Text.breaks_of_forall hdigit hdigits.2)
  | @decimal digits _ _ _ hdigits hwhole hfraction _ _ =>
      have hnone : '\n' ∉ digits.toList := by
        rw [hdigits, List.mem_append, List.mem_cons, not_or, not_or]
        exact ⟨Text.break_not_mem hdigit hwhole.2, by decide,
          Text.break_not_mem hdigit hfraction.2⟩
      exact (Text.breaks_between rfl rfl _).trans (Text.breaks_eq_zero_iff.mpr hnone)
  | @character c _ hseparator _ _ _ _ _ _ =>
      have hnone : '\n' ∉ c.toString.toList := by
        rw [Char.toString, String.toList_singleton, List.mem_singleton]
        rintro rfl
        exact nomatch hseparator
      exact (Text.breaks_between rfl rfl _).trans (Text.breaks_eq_zero_iff.mpr hnone)
  | _ => rfl

namespace Script

/-- Only directives are complained about as directives. -/
theorem isDirective_of_round {final t : Token} {rest behind : List Token} {e : ParseError}
    (h : round final t rest = (.error e, behind)) (hfault : e.fault = .unsupportedDirective) :
    e.found.kind.isDirective := by
  unfold round at h
  cases hbody : Statement.body? t with
  | none =>
      simp only [hbody] at h
      cases h
      unfold strayToken at *
      by_cases hkind : t.kind.isDirective
      · exact hkind
      · simp [hkind] at hfault
  | some body =>
      simp only [hbody] at h
      cases hclosed : Statement.closed body rest with
      | ok statement left =>
          simp only [hclosed] at h
          exact nomatch h
      | error what left =>
          simp only [hclosed] at h
          cases h
          exact nomatch hfault

theorem isDirective_of_readStatements (final : Token) (ts : List Token) :
    ∀ e ∈ (readStatements final ts).2, e.fault = .unsupportedDirective →
      e.found.kind.isDirective := by
  induction ts using rounds_induction final with
  | nil => simp [readStatements]
  | ok t rest statement behind hround ih =>
      rw [readStatements_of_ok hround]
      exact ih
  | error t rest e behind hround ih =>
      rw [readStatements_of_error hround]
      exact List.forall_mem_cons.mpr ⟨isDirective_of_round hround, ih⟩

end Script

/-- The wording of an error has the line breaks of the token it blames. -/
theorem ParseError.breaks_summary {e : ParseError}
    (hend : e.found.kind = .endOfFile → e.found.value = none)
    (hdirective : e.fault = .unsupportedDirective → e.found.value = none) :
    Text.breaks e.summary = e.found.breaks := by
  unfold summary
  split
  · exact (Text.breaks_between rfl rfl _).trans e.found.breaks_description
  · next what _ =>
      split
      · next hkind =>
          rw [Text.breaks_append, what.breaks_text, Token.breaks_of_value_none (hend hkind)]
          rfl
      · rw [Text.breaks_append, what.breaks_text]
        exact (Text.breaks_between rfl rfl _).trans e.found.breaks_description
  · next hfault =>
      rw [Token.breaks_of_value_none (hdirective hfault)]
      exact (Text.breaks_between rfl rfl _).trans e.found.kind.breaks_description

/-- A library with a snippet for every role, whatever placeholders it has. -/
def Library.HasRoles (library : Library) : Prop :=
  ∀ role : Role, ∃ template, library role.name = .ok template

/-- Such a library refuses nothing but a key that the snippet does not have. -/
theorem Library.HasRoles.get_eq_error {library : Library} (h : library.HasRoles) {role : Role}
    {values : List (String × String)} {cause : SnippetError}
    (hget : library.get role.name values = .error cause) :
    ∃ key ∈ values.map Prod.fst, cause = .missingPlaceholder role.name key := by
  obtain ⟨template, htemplate⟩ := h role
  rw [Library.get, htemplate] at hget
  change substitute role.name template values = .error cause at hget
  unfold substitute at hget
  split at hget
  · next value hvalue =>
      cases hget
      exact ⟨value.1, List.mem_map_of_mem (List.mem_of_find?_eq_some hvalue), rfl⟩
  · cases hget

/-- The names of the script that is read from a text are words. -/
theorem isWord_of_hasNode {source : String} {ts : List Token} (h : tokenize source = .ok ts)
    {name : Name} (hname : (parse ts).script.HasNode (.name name)) :
    Scan.IsWord name.text.toList := by
  obtain ⟨-, hstatements, -⟩ :=
    tokens_of_parse (P := Token.Paired) (paired_of_tokenize h) (exists_isFinal_of_tokenize h)
  have hpaired : name.token.Paired := hname.tokens hstatements _ List.mem_cons_self
  obtain ⟨-, hword, -⟩ :=
    Node.says_of_wellFormed (hname.wellFormed (parse_wellFormed ts)) hpaired
  exact hword

/-- What stops a rendering is said on one line, if the names of the script are words. -/
theorem Script.Complaint.breaks_message {library : Library} {script : Script} {fault : RenderFault}
    (h : script.Complaint library fault) (hlibrary : library.HasRoles)
    (hnames : ∀ name, script.HasNode (.name name) → Scan.IsWord name.text.toList) :
    Text.breaks fault.message = 0 := by
  have hname : ∀ {name : Name}, script.HasNode (.name name) → Text.breaks name.text = 0 :=
    fun h => Scan.breaks_of_isWord (hnames _ h)
  cases h with
  | @snippet role values cause hkeys hget =>
      obtain ⟨key, hkey, rfl⟩ := hlibrary.get_eq_error hget
      have hrole : Text.breaks role.name = 0 := by cases role <;> rfl
      have hbreaks : ∀ key ∈ role.keys, Text.breaks key = 0 := by cases role <;> decide
      have hfront : Text.breaks ("snippet '" ++ role.name ++ "' has no placeholder '") = 0 := by
        rw [Text.breaks_between rfl rfl, hrole]
      exact (Text.breaks_between hfront rfl key).trans (hbreaks key (hkeys ▸ hkey))
  | @joinType token _ _ _ _ _ =>
      change Text.breaks ("unknown join type " ++ token.kind.description) = 0
      rw [Text.breaks_append, token.kind.breaks_description]
      rfl
  | unresolved hnode => exact (Text.breaks_between rfl rfl _).trans (hname hnode)
  | shared hnode => exact (Text.breaks_between rfl rfl _).trans (hname hnode)

/-- The line breaks in the payload that a diagnostic shows. -/
def Diagnostic.breaks : Diagnostic → Nat
  | parse e => e.found.breaks
  | lex _ | render _ => 0

theorem breaks_message_of_compile {library : Library} (hlibrary : library.HasRoles)
    {source : String} {diagnostics : List Diagnostic}
    (h : compile library source = .error diagnostics) :
    ∀ d ∈ diagnostics, Text.breaks d.message = d.breaks := by
  rcases compile_eq_error h with
    ⟨e, htokens, rfl⟩ | ⟨ts, htokens, -, rfl⟩ | ⟨ts, e, htokens, -, hrender, rfl⟩
  · obtain ⟨_, _, -, -, hoffends, -⟩ := standsIn_of_tokenize_error htokens
    exact List.forall_mem_singleton.mpr (LexFault.breaks_message hoffends)
  · obtain ⟨-, -, hfound⟩ :=
      tokens_of_parse (value_none_of_tokenize htokens) (exists_isFinal_of_tokenize htokens)
    refine List.forall_mem_map.mpr fun e he => ?_
    exact ParseError.breaks_summary (fun hend => hfound e he (.inr hend)) fun hfault =>
      hfound e he (.inl (Script.isDirective_of_readStatements _ _ e he hfault))
  · have hcomplaint := Render.complains_render library (parse ts).script e hrender
    exact List.forall_mem_singleton.mpr
      (hcomplaint.breaks_message hlibrary fun _ => isWord_of_hasNode htokens)

/-! ## Reports -/

namespace Report

theorem lists_tokens {source : String} {ts : List Token} (h : tokenize source = .ok ts) :
    Lists (ts.map fun t => (t.position.text, t.breaks)) (Text.lines (tokens ts)) := by
  have hne : ts ≠ [] := by
    obtain ⟨front, final, rfl, -⟩ := tokens_of_tokenize h
    exact List.concat_ne_nil final front
  exact lists_intercalate hne (fun t _ => t.position.breaks_text)
    (fun t _ => tokenLine_begins t) fun t ht => breaks_tokenLine (trimmed_of_tokenize h t ht)

theorem lists_diagnostics {library : Library} (hlibrary : library.HasRoles) {source : String}
    {ds : List Diagnostic} (h : compile library source = .error ds) :
    Lists (ds.map fun d => ("error: " ++ d.position.text, d.breaks))
      (Text.lines (diagnostics ds)) := by
  have hne : ds ≠ [] := by
    rcases compile_eq_error h with ⟨e, -, rfl⟩ | ⟨ts, -, hsome, rfl⟩ | ⟨ts, e, -, -, -, rfl⟩
    · exact List.cons_ne_nil _ _
    · exact fun hnone => hsome (List.map_eq_nil_iff.mp hnone)
    · exact List.cons_ne_nil _ _
  have hstart : ∀ d : Diagnostic, Text.breaks ("error: " ++ d.position.text) = 0 := by
    intro d
    rw [Text.breaks_append, d.position.breaks_text]
    rfl
  have hline : ∀ d : Diagnostic,
      "error: " ++ d.text = "error: " ++ d.position.text ++ (": " ++ d.message) := by
    intro d
    simp only [Diagnostic.text, String.append_assoc]
  refine lists_intercalate hne (fun d _ => hstart d) (fun d _ => ?_) fun d hd => ?_
  · rw [hline]
    exact ⟨_, String.toList_append.symm⟩
  · have hcolon : Text.breaks ": " = 0 := rfl
    rw [hline, Text.breaks_append, hstart, Text.breaks_append, hcolon, Nat.zero_add, Nat.zero_add,
      breaks_message_of_compile hlibrary h d hd]

end Report

/-- Reports list their items one below the other, and an item goes on for as many lines as the
payload that it shows has line breaks. In the report of the tokens of a text an item begins with the
place of its token. If the text does not compile, with a library that has a snippet for every role,
an item of the report of diagnostics begins with the word for an error and the place of the
diagnostic. So a report has exactly one line for each item if and only if no payload in it has a
line break. -/
theorem reports_line_each_iff (source : String) :
    (∀ ts, tokenize source = .ok ts →
      Report.Lists (ts.map fun t => (t.position.text, t.breaks))
        (Text.lines (Report.tokens ts)) ∧
      (Report.LineEach (ts.map fun t => t.position.text) (Text.lines (Report.tokens ts)) ↔
        ∀ t ∈ ts, t.breaks = 0)) ∧
    ∀ library : Library, library.HasRoles →
      ∀ diagnostics, compile library source = .error diagnostics →
        Report.Lists (diagnostics.map fun d => ("error: " ++ d.position.text, d.breaks))
          (Text.lines (Report.diagnostics diagnostics)) ∧
        (Report.LineEach (diagnostics.map fun d => "error: " ++ d.position.text)
            (Text.lines (Report.diagnostics diagnostics)) ↔
          ∀ d ∈ diagnostics, d.breaks = 0) := by
  constructor
  · intro ts hts
    have hlists := Report.lists_tokens hts
    exact ⟨hlists, hlists.lineEach_map_iff⟩
  · intro library hlibrary diagnostics herror
    have hlists := Report.lists_diagnostics hlibrary herror
    exact ⟨hlists, hlists.lineEach_map_iff⟩

/-- A string over two lines takes two lines in the report of the tokens. The complaint is about a
name, and it has one line. -/
theorem reports_line_each_iff_unresolved :
    let source := "OUTPUT x TO \"a\nb\";"
    let ts : List Token := [.plain (.keyword .OUTPUT) ⟨1, 1⟩,
      ⟨.identifier, some (.text "x"), ⟨1, 8⟩⟩, .plain (.keyword .TO) ⟨1, 10⟩,
      ⟨.string, some (.text "a\nb"), ⟨1, 13⟩⟩, .plain (.punctuation .semicolon) ⟨2, 3⟩,
      .plain .endOfFile ⟨2, 4⟩]
    let diagnostics : List Diagnostic := [.render ⟨.unresolved "x", ⟨1, 8⟩⟩]
    tokenize source = .ok ts ∧ compile .builtin source = .error diagnostics ∧
      ¬Report.LineEach (ts.map fun t => t.position.text) (Text.lines (Report.tokens ts)) ∧
      Report.LineEach ["error: 1:8"] (Text.lines (Report.diagnostics diagnostics)) := by
  intro source ts diagnostics
  have htokens : tokenize source = .ok ts := tokenize_eq_ok_iff.mpr (by decide +kernel)
  have hparsed : (parse ts).errors = [] ∧ (parse ts).script = ⟨.plain (.keyword .OUTPUT) ⟨1, 1⟩,
      [.output (.plain (.keyword .OUTPUT) ⟨1, 1⟩)
        (.named ⟨⟨.identifier, some (.text "x"), ⟨1, 8⟩⟩, "x"⟩)
        ⟨⟨.string, some (.text "a\nb"), ⟨1, 13⟩⟩, "a\nb"⟩]⟩ := by decide +kernel
  have hfails : compile .builtin source = .error diagnostics := by
    simp only [compile, readScript, htokens, hparsed]
    rfl
  have hlibrary : Library.builtin.HasRoles := fun role =>
    (Library.builtin_complete role).imp fun _ => And.left
  obtain ⟨htokenLines, hdiagnosticLines⟩ := reports_line_each_iff source
  refine ⟨htokens, hfails, ?_, ?_⟩
  · rw [(htokenLines ts htokens).2]
    decide
  · exact (hdiagnosticLines .builtin hlibrary diagnostics hfails).2.mpr (by decide)

/-- A string over two lines that begins no statement makes three lines of two tokens, and two lines
of one diagnostic. -/
theorem report_lines_split_by_string :
    let source := "\"a\nb\""
    let string : Token := ⟨.string, some (.text "a\nb"), ⟨1, 1⟩⟩
    let ts : List Token := [string, .plain .endOfFile ⟨2, 3⟩]
    let diagnostics : List Diagnostic := [.parse ⟨.unexpected, string⟩]
    tokenize source = .ok ts ∧
      Report.tokens ts = "1:1      String       \"a\nb\"\n2:3      EndOfFile" ∧
      ¬Report.LineEach (ts.map fun t => t.position.text) (Text.lines (Report.tokens ts)) ∧
      compile .builtin source = .error diagnostics ∧
      Report.diagnostics diagnostics =
        "error: 1:1: Unexpected string \"a\nb\", expected a statement" ∧
      ¬Report.LineEach ["error: 1:1"] (Text.lines (Report.diagnostics diagnostics)) := by
  intro source string ts diagnostics
  have htokens : tokenize source = .ok ts := tokenize_eq_ok_iff.mpr (by decide +kernel)
  have herrors : (parse ts).errors = [⟨.unexpected, string⟩] := by decide +kernel
  have hfails : compile .builtin source = .error diagnostics := by
    simp only [compile, readScript, htokens, herrors]
    rfl
  have hreport : Report.tokens ts = "1:1      String       \"a\nb\"\n2:3      EndOfFile" := by
    decide +kernel
  have hcomplaint : Report.diagnostics diagnostics =
      "error: 1:1: Unexpected string \"a\nb\", expected a statement" := by decide +kernel
  have hlength : (Text.lines (Report.tokens ts)).length = 3 ∧
      (Text.lines (Report.diagnostics diagnostics)).length = 2 := by
    rw [hreport, hcomplaint, Text.length_lines, Text.length_lines]
    exact ⟨rfl, rfl⟩
  refine ⟨htokens, hreport, fun heach => ?_, hfails, hcomplaint, fun heach => ?_⟩
  · exact absurd (heach.length_eq.trans hlength.1) (by decide)
  · exact absurd (heach.length_eq.trans hlength.2) (by decide)

end RecordFlow
