/-
# Beginnings of words

A derivation may stop anywhere; what it has derived by then is the beginning of a word. No rule
leaves a choice among no alternatives, and every symbol has a word, so each derivation that stopped
can be finished: every beginning has a completion.
-/

import RecordFlow.Proofs.Grammar.Basic

namespace RecordFlow.Grammar

/-- The beginnings of the words of a form. -/
inductive Begins : Form → List TokenKind → Prop
  | stop {form : Form} : Begins form []
  | kind {k : TokenKind} : Begins (.kind k) [k]
  | symbol {s : Symbol} {w : List TokenKind} : Begins (rule s) w → Begins (.symbol s) w
  | head {form : Form} {forms : List Form} {u : List TokenKind} :
      Begins form u → Begins (.all (form :: forms)) u
  | tail {form : Form} {forms : List Form} {u v : List TokenKind} :
      Derives form u → Begins (.all forms) v → Begins (.all (form :: forms)) (u ++ v)
  | any {form : Form} {forms : List Form} {w : List TokenKind} :
      form ∈ forms → Begins form w → Begins (.any forms) w
  | opt {form : Form} {w : List TokenKind} : Begins form w → Begins (.opt form) w
  | first {form : Form} {w : List TokenKind} : Begins form w → Begins (.many form) w
  | more {form : Form} {u v : List TokenKind} :
      Derives form u → Begins (.many form) v → Begins (.many form) (u ++ v)

variable {form : Form} {forms others : List Form} {w : List TokenKind}

/-- A whole word is a beginning of itself. -/
theorem Derives.begins (h : Derives form w) : Begins form w := by
  induction h with
  | kind => exact .kind
  | symbol _ ih => exact .symbol ih
  | nil => exact .stop
  | cons hu _ _ ihv => exact .tail hu ihv
  | any hmem _ ih => exact .any hmem ih
  | absent => exact .stop
  | present _ ih => exact .opt ih
  | done => exact .stop
  | more hu _ _ ihv => exact .more hu ihv

theorem begins_all_nil : Begins (.all []) w ↔ w = [] := by
  constructor
  · rintro ⟨⟩
    rfl
  · rintro rfl
    exact .stop

theorem begins_all_singleton : Begins (.all [form]) w ↔ Begins form w := by
  constructor
  · rintro ⟨⟩
    · exact .stop
    · assumption
    · next u v hu hv =>
        rw [begins_all_nil.mp hv, List.append_nil]
        exact hu.begins
  · exact .head

/-- A sequence stops among its first forms or behind them. -/
theorem begins_all_append (h : Begins (.all (forms ++ others)) w) :
    Begins (.all forms) w ∨
      ∃ u v, w = u ++ v ∧ Derives (.all forms) u ∧ Begins (.all others) v := by
  induction forms generalizing w with
  | nil => exact .inr ⟨[], w, rfl, .nil, h⟩
  | cons form forms ih =>
      cases h with
      | stop => exact .inl .stop
      | head hform => exact .inl (.head hform)
      | @tail _ _ u v hu hv =>
          rcases ih hv with hv | ⟨v, v', rfl, hv, hv'⟩
          · exact .inl (.tail hu hv)
          · exact .inr ⟨u ++ v, v', (List.append_assoc u v v').symm, .cons hu hv, hv'⟩

mutual

/-- Whether every choice in a form has an alternative. -/
def Form.offers : Form → Bool
  | .kind _ => true
  | .symbol _ => true
  | .all forms => Form.allOffer forms
  | .any forms => !forms.isEmpty && Form.allOffer forms
  | .opt form => form.offers
  | .many form => form.offers

/-- Whether every choice in each of the forms has an alternative. -/
def Form.allOffer : List Form → Bool
  | [] => true
  | form :: forms => form.offers && Form.allOffer forms

end

theorem Form.offers_of_mem (h : Form.allOffer forms) (hmem : form ∈ forms) : form.offers := by
  induction forms with
  | nil => exact nomatch hmem
  | cons first rest ih =>
      obtain ⟨hfirst, hrest⟩ := Bool.and_eq_true_iff.mp h
      rcases List.mem_cons.mp hmem with rfl | hmem
      · exact hfirst
      · exact ih hrest hmem

theorem rule_offers (s : Symbol) : (rule s).offers := by cases s <;> rfl

/-- A short word of each symbol. -/
def Symbol.sample : Symbol → List TokenKind
  | .script => []
  | .statement => [.keyword .EXPORT, .identifier, .punctuation .semicolon]
  | .source | .selectSource | .aliasable => [.identifier]
  | .fields => [.punctuation .star]
  | .field | .value => [.string]

theorem Symbol.derives_sample (s : Symbol) : Derives (.symbol s) s.sample := by
  have hsource : Derives (.symbol .source) [.identifier] :=
    .symbol (.any (.tail _ (.tail _ (.head _))) .kind)
  have haliasable : Derives (.symbol .aliasable) [.identifier] :=
    .symbol (.cons hsource (derives_all_singleton.mpr .absent))
  cases s with
  | script => exact .symbol .done
  | statement =>
      have hbody : Derives .statementBody [.keyword .EXPORT, .identifier] :=
        .any (.tail _ (.tail _ (.tail _ (.tail _ (.tail _ (.head _))))))
          (.cons .kind (derives_all_singleton.mpr .kind))
      exact .symbol (.cons hbody (derives_all_singleton.mpr .kind))
  | source => exact hsource
  | selectSource => exact .symbol (.cons haliasable (derives_all_singleton.mpr .done))
  | aliasable => exact haliasable
  | fields => exact .symbol (.any (.head _) .kind)
  | field =>
      have hvalue : Derives .fieldValue [.string] := .any (.tail _ (.head _)) .kind
      exact .symbol (.cons hvalue (derives_all_singleton.mpr .absent))
  | value => exact .symbol (.any (.head _) .kind)

mutual

theorem Form.exists_word : (form : Form) → form.offers → ∃ w, Derives form w
  | .kind k, _ => ⟨[k], .kind⟩
  | .symbol s, _ => ⟨s.sample, s.derives_sample⟩
  | .all forms, h => Form.exists_words forms h
  | .any [], h => nomatch h
  | .any (form :: forms), h => by
      have hall : Form.allOffer (form :: forms) := (Bool.and_eq_true_iff.mp h).2
      obtain ⟨w, hw⟩ := Form.exists_word form (Form.offers_of_mem hall List.mem_cons_self)
      exact ⟨w, .any List.mem_cons_self hw⟩
  | .opt form, _ => ⟨[], .absent⟩
  | .many form, _ => ⟨[], .done⟩

theorem Form.exists_words : (forms : List Form) → Form.allOffer forms →
    ∃ w, Derives (.all forms) w
  | [], _ => ⟨[], .nil⟩
  | form :: forms, h => by
      obtain ⟨u, hu⟩ := Form.exists_word form (Bool.and_eq_true_iff.mp h).1
      obtain ⟨v, hv⟩ := Form.exists_words forms (Bool.and_eq_true_iff.mp h).2
      exact ⟨u ++ v, .cons hu hv⟩

end

/-- Every beginning has a completion. -/
theorem Begins.complete (h : Begins form w) (hform : form.offers) : ∃ v, Derives form (w ++ v) := by
  induction h with
  | @stop form => exact form.exists_word hform
  | kind => exact ⟨[], .kind⟩
  | @symbol s w _ ih =>
      obtain ⟨v, hv⟩ := ih (rule_offers s)
      exact ⟨v, .symbol hv⟩
  | @head form forms u _ ih =>
      obtain ⟨hfirst, hrest⟩ := Bool.and_eq_true_iff.mp hform
      obtain ⟨v, hv⟩ := ih hfirst
      obtain ⟨v', hv'⟩ := Form.exists_words forms hrest
      exact ⟨v ++ v', by rw [← List.append_assoc]; exact .cons hv hv'⟩
  | @tail form forms u v hu _ ih =>
      obtain ⟨v', hv'⟩ := ih (Bool.and_eq_true_iff.mp hform).2
      exact ⟨v', by rw [List.append_assoc]; exact .cons hu hv'⟩
  | any hmem _ ih =>
      obtain ⟨v, hv⟩ := ih (Form.offers_of_mem (Bool.and_eq_true_iff.mp hform).2 hmem)
      exact ⟨v, .any hmem hv⟩
  | opt _ ih =>
      obtain ⟨v, hv⟩ := ih hform
      exact ⟨v, .present hv⟩
  | first _ ih =>
      obtain ⟨v, hv⟩ := ih hform
      exact ⟨v, by simpa using Derives.more hv .done⟩
  | more hu _ ih =>
      obtain ⟨v, hv⟩ := ih hform
      exact ⟨v, by rw [List.append_assoc]; exact .more hu hv⟩

end RecordFlow.Grammar
