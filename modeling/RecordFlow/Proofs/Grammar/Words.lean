/-
# Words of tokens

A list of tokens is a word of a form when its kinds are. The statements about derivations are
carried over to tokens, so that a word is taken apart into the tokens themselves.
-/

import RecordFlow.Proofs.Grammar.Basic
import RecordFlow.Token.Basic

namespace RecordFlow.Grammar

/-- The tokens make up a word of the form. -/
def Matches (form : Form) (ts : List Token) : Prop := Derives form (ts.map Token.kind)

variable {form : Form} {forms : List Form} {kind : TokenKind} {ts : List Token}

theorem matches_kind {t : Token} : Matches (.kind kind) [t] ↔ t.kind = kind := by
  simp [Matches]

theorem matches_kind_iff : Matches (.kind kind) ts ↔ ∃ t, ts = [t] ∧ t.kind = kind := by
  simp only [Matches, derives_kind, List.map_eq_singleton_iff]

theorem matches_joinOperator {t : Token} : Matches .joinOperator [t] ↔ t.kind.isJoinOperator := by
  simp [Matches, derives_joinOperator]

theorem matches_symbol {s : Symbol} : Matches (.symbol s) ts ↔ Matches (rule s) ts := derives_symbol

theorem matches_all_cons :
    Matches (.all (form :: forms)) ts ↔
      ∃ us vs, ts = us ++ vs ∧ Matches form us ∧ Matches (.all forms) vs := by
  simp only [Matches, derives_all_cons]
  constructor
  · rintro ⟨u, v, huv, hu, hv⟩
    obtain ⟨us, vs, rfl, rfl, rfl⟩ := List.map_eq_append_iff.mp huv
    exact ⟨us, vs, rfl, hu, hv⟩
  · rintro ⟨us, vs, rfl, hus, hvs⟩
    exact ⟨_, _, List.map_append, hus, hvs⟩

theorem matches_all_singleton : Matches (.all [form]) ts ↔ Matches form ts := derives_all_singleton

theorem Matches.cons {us vs : List Token} (hus : Matches form us) (hvs : Matches (.all forms) vs) :
    Matches (.all (form :: forms)) (us ++ vs) :=
  matches_all_cons.mpr ⟨us, vs, rfl, hus, hvs⟩

/-- A sequence that begins with a single token begins with a token of that kind. -/
theorem matches_all_kind_cons :
    Matches (.all (.kind kind :: forms)) ts ↔
      ∃ t vs, ts = t :: vs ∧ t.kind = kind ∧ Matches (.all forms) vs := by
  rw [matches_all_cons]
  constructor
  · rintro ⟨us, vs, rfl, hus, hvs⟩
    obtain ⟨t, rfl, ht⟩ := matches_kind_iff.mp hus
    exact ⟨t, vs, rfl, ht, hvs⟩
  · rintro ⟨t, vs, rfl, ht, hvs⟩
    exact ⟨[t], vs, rfl, matches_kind.mpr ht, hvs⟩

theorem matches_any : Matches (.any forms) ts ↔ ∃ form ∈ forms, Matches form ts := derives_any

theorem matches_opt : Matches (.opt form) ts ↔ ts = [] ∨ Matches form ts := by
  simp [Matches]

theorem Matches.parts (h : Matches (.many form) ts) :
    ∃ parts : List (List Token), ts = parts.flatten ∧ ∀ us ∈ parts, Matches form us := by
  obtain ⟨words, hwords, hform⟩ := Derives.parts h
  clear h
  induction words generalizing ts with
  | nil => exact ⟨[], List.map_eq_nil_iff.mp hwords, List.forall_mem_nil _⟩
  | cons u words ih =>
      obtain ⟨us, vs, rfl, rfl, hvs⟩ := List.map_eq_append_iff.mp hwords
      obtain ⟨hu, hrest⟩ := List.forall_mem_cons.mp hform
      obtain ⟨parts, rfl, hparts⟩ := ih hvs hrest
      exact ⟨us :: parts, rfl, List.forall_mem_cons.mpr ⟨hu, hparts⟩⟩

end RecordFlow.Grammar
