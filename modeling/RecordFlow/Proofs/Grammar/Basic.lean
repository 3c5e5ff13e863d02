/-
# The grammar of scripts

A grammar in the usual extended notation, as data: terminals, symbols, sequences, alternatives,
options and repetitions. Derivations are over kinds of tokens, since no payload and no position
decides what a script is. The grammar says which words are scripts and does not say how a word is
taken apart: behind a selection inside a selection, an alias, a join or a condition may belong to
either of the two.
-/

import RecordFlow.Token.Kind

namespace RecordFlow.Grammar

/-- The names of the rules. -/
inductive Symbol
  | script
  | statement
  | source
  | selectSource
  | aliasable
  | fields
  | field
  | value
deriving DecidableEq, Repr

/-- The right-hand side of a rule. -/
inductive Form
  /-- One token of this kind. -/
  | kind (kind : TokenKind)
  /-- A word of another rule. -/
  | symbol (symbol : Symbol)
  /-- One after another. -/
  | all (forms : List Form)
  /-- One of these. -/
  | any (forms : List Form)
  /-- Once or not at all. -/
  | opt (form : Form)
  /-- Any number of times. -/
  | many (form : Form)

namespace Form

/-- A reserved word. -/
def word (keyword : Keyword) : Form := kind (.keyword keyword)

/-- A punctuation mark. -/
def mark (punctuation : Punctuation) : Form := kind (.punctuation punctuation)

/-- A name. -/
def name : Form := kind .identifier

/-- One of the words that announce a join. -/
def joinOperator : Form := any [word .INNER, word .LEFT, word .RIGHT, word .OUTER]

/-- What a field takes its value from. -/
def fieldValue : Form :=
  any [kind .expression, kind .string, kind .integer, kind .decimal, kind .boolean,
    all [name, opt (all [mark .dot, name])]]

/-- A statement up to its semicolon. -/
def statementBody : Form :=
  any [
    all [name, mark .equal, symbol .source],
    all [word .OUTPUT, symbol .source, word .TO, kind .string],
    all [word .PARAM, mark .atSign, name, mark .colon, name,
      opt (all [mark .equal, symbol .value])],
    all [mark .atSign, name, opt (all [mark .colon, name]), mark .equal, symbol .value],
    all [word .IMPORT, name, word .FROM, kind .string],
    all [word .EXPORT, name]]

end Form

open Form in
/-- The rules. -/
def rule : Symbol → Form
  | .script => many (symbol .statement)
  | .statement => all [statementBody, mark .semicolon]
  | .source =>
      any [
        all [word .EXTRACT, symbol .fields, word .FROM, kind .string],
        all [word .SELECT, symbol .fields, word .FROM, symbol .selectSource,
          opt (all [word .WHERE, kind .expression])],
        name,
        all [mark .leftParen, symbol .selectSource, mark .rightParen]]
  | .selectSource =>
      all [symbol .aliasable,
        many (all [joinOperator, word .JOIN, symbol .aliasable, word .ON, kind .expression])]
  | .aliasable => all [symbol .source, opt (all [word .AS, name])]
  | .fields => any [mark .star, all [symbol .field, many (all [mark .comma, symbol .field])]]
  | .field => all [fieldValue, opt (all [word .AS, name])]
  | .value =>
      any [kind .string, kind .integer, kind .decimal, kind .boolean, kind .expression,
        all [mark .atSign, name]]

/-- The words that a form stands for. -/
inductive Derives : Form → List TokenKind → Prop
  | kind {k : TokenKind} : Derives (.kind k) [k]
  | symbol {s : Symbol} {w : List TokenKind} : Derives (rule s) w → Derives (.symbol s) w
  | nil : Derives (.all []) []
  | cons {form : Form} {forms : List Form} {u v : List TokenKind} :
      Derives form u → Derives (.all forms) v → Derives (.all (form :: forms)) (u ++ v)
  | any {form : Form} {forms : List Form} {w : List TokenKind} :
      form ∈ forms → Derives form w → Derives (.any forms) w
  | absent {form : Form} : Derives (.opt form) []
  | present {form : Form} {w : List TokenKind} : Derives form w → Derives (.opt form) w
  | done {form : Form} : Derives (.many form) []
  | more {form : Form} {u v : List TokenKind} :
      Derives form u → Derives (.many form) v → Derives (.many form) (u ++ v)

variable {form : Form} {forms : List Form} {s : Symbol} {w : List TokenKind}

@[simp]
theorem derives_kind {k : TokenKind} : Derives (.kind k) w ↔ w = [k] := by
  constructor
  · rintro ⟨⟩
    rfl
  · rintro rfl
    exact .kind

@[simp]
theorem derives_word {keyword : Keyword} : Derives (.word keyword) w ↔ w = [.keyword keyword] :=
  derives_kind

theorem derives_symbol : Derives (.symbol s) w ↔ Derives (rule s) w := by
  constructor
  · rintro ⟨⟩
    assumption
  · exact .symbol

@[simp]
theorem derives_all_nil : Derives (.all []) w ↔ w = [] := by
  constructor
  · rintro ⟨⟩
    rfl
  · rintro rfl
    exact .nil

@[simp]
theorem derives_all_cons :
    Derives (.all (form :: forms)) w ↔
      ∃ u v, w = u ++ v ∧ Derives form u ∧ Derives (.all forms) v := by
  constructor
  · rintro ⟨⟩
    exact ⟨_, _, rfl, by assumption, by assumption⟩
  · rintro ⟨u, v, rfl, hu, hv⟩
    exact .cons hu hv

theorem derives_all_singleton : Derives (.all [form]) w ↔ Derives form w := by
  simp only [derives_all_cons, derives_all_nil]
  constructor
  · rintro ⟨u, _, rfl, hu, rfl⟩
    rw [List.append_nil]
    exact hu
  · intro h
    exact ⟨w, [], (List.append_nil w).symm, h, rfl⟩

theorem derives_all_append {others : List Form} :
    Derives (.all (forms ++ others)) w ↔
      ∃ u v, w = u ++ v ∧ Derives (.all forms) u ∧ Derives (.all others) v := by
  induction forms generalizing w with
  | nil =>
      constructor
      · intro h
        exact ⟨[], w, rfl, .nil, h⟩
      · rintro ⟨u, v, rfl, hu, hv⟩
        rw [derives_all_nil.mp hu]
        exact hv
  | cons form forms ih =>
      simp only [List.cons_append, derives_all_cons, ih]
      constructor
      · rintro ⟨u, _, rfl, hu, v, v', rfl, hv, hv'⟩
        exact ⟨u ++ v, v', (List.append_assoc u v v').symm, ⟨u, v, rfl, hu, hv⟩, hv'⟩
      · rintro ⟨_, v', rfl, ⟨u, v, rfl, hu, hv⟩, hv'⟩
        exact ⟨u, v ++ v', List.append_assoc u v v', hu, v, v', rfl, hv, hv'⟩

@[simp]
theorem derives_any : Derives (.any forms) w ↔ ∃ form ∈ forms, Derives form w := by
  constructor
  · rintro ⟨⟩
    exact ⟨_, by assumption, by assumption⟩
  · rintro ⟨form, hmem, h⟩
    exact .any hmem h

theorem derives_joinOperator :
    Derives .joinOperator w ↔ ∃ k : TokenKind, k.isJoinOperator ∧ w = [k] := by
  simp only [Form.joinOperator, derives_any, List.mem_cons, List.not_mem_nil, or_false,
    exists_eq_or_imp, exists_eq_left, derives_word]
  constructor
  · rintro (h | h | h | h) <;> exact ⟨_, rfl, h⟩
  · rintro ⟨k, hk, rfl⟩
    unfold TokenKind.isJoinOperator at hk
    split at hk <;> simp_all

@[simp]
theorem derives_opt : Derives (.opt form) w ↔ w = [] ∨ Derives form w := by
  constructor
  · rintro ⟨⟩
    · exact .inl rfl
    · exact .inr (by assumption)
  · rintro (rfl | h)
    · exact .absent
    · exact .present h

/-- A word of a repetition is made up of words of what is repeated. -/
theorem Derives.parts (h : Derives (.many form) w) :
    ∃ words : List (List TokenKind), w = words.flatten ∧ ∀ u ∈ words, Derives form u := by
  generalize hrepeat : Form.many form = repeated at h
  induction h with
  | done => exact ⟨[], rfl, List.forall_mem_nil _⟩
  | @more form' u v hu _ _ ih =>
      cases hrepeat
      obtain ⟨words, rfl, hwords⟩ := ih rfl
      exact ⟨u :: words, rfl, List.forall_mem_cons.mpr ⟨hu, hwords⟩⟩
  | _ => exact nomatch hrepeat

mutual

/-- Whether a form itself has a terminal of the given kind. -/
def Form.mentions (k : TokenKind) : Form → Bool
  | .kind other => other == k
  | .symbol _ => false
  | .all forms => Form.someMentions k forms
  | .any forms => Form.someMentions k forms
  | .opt form => form.mentions k
  | .many form => form.mentions k

/-- Whether one of the forms has a terminal of the given kind. -/
def Form.someMentions (k : TokenKind) : List Form → Bool
  | [] => false
  | form :: forms => form.mentions k || Form.someMentions k forms

end

theorem Form.mentions_of_mem {k : TokenKind} (h : Form.someMentions k forms = false)
    (hmem : form ∈ forms) : form.mentions k = false := by
  induction forms with
  | nil => exact nomatch hmem
  | cons first rest ih =>
      obtain ⟨hfirst, hrest⟩ := Bool.or_eq_false_iff.mp h
      rcases List.mem_cons.mp hmem with rfl | hmem
      · exact hfirst
      · exact ih hrest hmem

/-- A kind that neither the form nor a rule mentions is in no word of the form. -/
theorem Derives.not_mem {k : TokenKind} (hrule : ∀ s, (rule s).mentions k = false)
    (h : Derives form w) (hform : form.mentions k = false) : k ∉ w := by
  induction h with
  | kind =>
      intro hmem
      rw [List.mem_singleton.mp hmem] at hform
      simp [Form.mentions] at hform
  | @symbol s w _ ih => exact ih (hrule s)
  | nil => exact List.not_mem_nil
  | cons _ _ ihu ihv =>
      obtain ⟨hu, hv⟩ := Bool.or_eq_false_iff.mp hform
      exact fun hmem => (List.mem_append.mp hmem).elim (ihu hu) (ihv hv)
  | any hmem _ ih => exact ih (Form.mentions_of_mem hform hmem)
  | absent => exact List.not_mem_nil
  | present _ ih => exact ih hform
  | done => exact List.not_mem_nil
  | more _ _ ihu ihv => exact fun hmem => (List.mem_append.mp hmem).elim (ihu hform) (ihv hform)

/-- The end of the text is not a part of any word of the grammar. -/
theorem Derives.endOfFile_not_mem {s : Symbol} (h : Derives (.symbol s) w) :
    TokenKind.endOfFile ∉ w :=
  h.not_mem (fun s => by cases s <;> decide) rfl

end RecordFlow.Grammar
