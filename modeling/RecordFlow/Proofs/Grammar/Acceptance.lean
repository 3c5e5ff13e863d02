/-
# Reading accepts exactly the grammar

The statements of a script are read one after another, each up to its semicolon. A semicolon stands
nowhere inside a statement and begins no tail of a source, so a statement of the grammar is read as
a whole, and a script of the grammar is read without an error. In the other direction a list that is
read without an error is a list of statements of the grammar.
-/

import RecordFlow.Proofs.Grammar.Completeness
import RecordFlow.Proofs.Grammar.Soundness

namespace RecordFlow

open Grammar Production

namespace Statement

variable {us ks : List Token}

theorem lands_value (h : Matches (.symbol .value) us) :
    Lands Value.production (us ++ ks) (· = ks) := by
  have hrule := matches_symbol.mp h
  simp only [rule, matches_any, List.mem_cons, List.not_mem_nil, or_false, exists_eq_or_imp,
    exists_eq_left] at hrule
  rcases hrule with h | h | h | h | h | hname
  iterate 5 exact lands_leaf h fun t ht => by simp only [Value.after?, ht]; exact ⟨_, rfl⟩
  obtain ⟨sign, _, rfl, hsign, hrest⟩ := matches_all_kind_cons.mp hname
  obtain ⟨name, rfl, hkind⟩ := matches_kind_iff.mp (matches_all_singleton.mp hrest)
  refine lands_choose (by simp only [Value.after?, hsign]; rfl) ?_
  exact lands_run (Name.production_cons hkind _ _) (lands_pure _ rfl)

theorem lands_default? (h : Matches (.opt (.all [.mark .equal, .symbol .value])) us)
    (hks : Avoids [.punctuation .equal] ks) : Lands default? (us ++ ks) (· = ks) := by
  rcases matches_opt.mp h with rfl | hvalue
  · exact lands_run (accept?_of_avoids hks) (lands_pure _ rfl)
  · obtain ⟨equal, _, rfl, hequal, hrest⟩ := matches_all_kind_cons.mp hvalue
    refine lands_run (accept?_cons hequal _)
      (lands_bind (lands_value (matches_all_singleton.mp hrest)) ?_)
    rintro value _ rfl
    exact lands_pure _ rfl

theorem lands_afterAt {token : Token}
    (h : Matches (.all [.name, .opt (.all [.mark .colon, .name]), .mark .equal, .symbol .value])
      us) :
    Lands (afterAt token) (us ++ ks) (· = ks) := by
  obtain ⟨name, _, rfl, hname, hrest⟩ := matches_all_kind_cons.mp h
  obtain ⟨vs, _, rfl, htype, hrest⟩ := matches_all_cons.mp hrest
  obtain ⟨equal, ws, rfl, hequal, hrest⟩ := matches_all_kind_cons.mp hrest
  have hvalue : Lands Value.production (ws ++ ks) (· = ks) :=
    lands_value (matches_all_singleton.mp hrest)
  refine lands_run (Name.production_cons hname _ _) ?_
  rcases matches_opt.mp htype with rfl | htype
  · refine lands_run (accept?_of_avoids (avoids_cons (by simp [hequal]))) ?_
    refine lands_run (take_cons hequal _ _) (lands_bind hvalue ?_)
    rintro value _ rfl
    exact lands_pure _ rfl
  · obtain ⟨colon, _, rfl, hcolon, htype⟩ := matches_all_kind_cons.mp htype
    obtain ⟨typeName, rfl, hkind⟩ := matches_kind_iff.mp (matches_all_singleton.mp htype)
    refine lands_run (accept?_cons hcolon _) (lands_run (Name.production_cons hkind _ _) ?_)
    refine lands_run (take_cons hequal _ _) (lands_bind hvalue ?_)
    rintro value _ rfl
    exact lands_pure _ rfl

theorem lands_afterName {name : Name} (h : Matches (.all [.mark .equal, .symbol .source]) us)
    (hks : Avoids Source.tails ks) : Lands (afterName name) (us ++ ks) (· = ks) := by
  obtain ⟨equal, vs, rfl, hequal, hrest⟩ := matches_all_kind_cons.mp h
  refine lands_run (take_cons hequal _ _)
    (lands_bind (Source.lands_production (matches_all_singleton.mp hrest) hks) ?_)
  rintro source _ rfl
  exact lands_pure _ rfl

theorem lands_afterOutput {token : Token}
    (h : Matches (.all [.symbol .source, .word .TO, .kind .string]) us) :
    Lands (afterOutput token) (us ++ ks) (· = ks) := by
  obtain ⟨vs, _, rfl, hsource, hrest⟩ := matches_all_cons.mp h
  obtain ⟨announcement, _, rfl, hto, hrest⟩ := matches_all_kind_cons.mp hrest
  obtain ⟨path, rfl, hpath⟩ := matches_kind_iff.mp (matches_all_singleton.mp hrest)
  have hplace : Avoids Source.tails ([announcement, path] ++ ks) :=
    avoids_cons (by simp [hto, Source.tails, Source.joinWords])
  rw [List.append_assoc]
  refine lands_bind (Source.lands_production hsource hplace) ?_
  rintro source _ rfl
  exact lands_run (take_cons hto _ _)
    (lands_run (TextLiteral.production_cons hpath _ _) (lands_pure _ rfl))

theorem lands_afterParam {token : Token}
    (h : Matches (.all [.mark .atSign, .name, .mark .colon, .name,
      .opt (.all [.mark .equal, .symbol .value])]) us)
    (hks : Avoids [.punctuation .equal] ks) : Lands (afterParam token) (us ++ ks) (· = ks) := by
  obtain ⟨sign, _, rfl, hsign, hrest⟩ := matches_all_kind_cons.mp h
  obtain ⟨name, _, rfl, hname, hrest⟩ := matches_all_kind_cons.mp hrest
  obtain ⟨colon, _, rfl, hcolon, hrest⟩ := matches_all_kind_cons.mp hrest
  obtain ⟨typeName, vs, rfl, htype, hrest⟩ := matches_all_kind_cons.mp hrest
  refine lands_run (take_cons hsign _ _) (lands_run (Name.production_cons hname _ _) ?_)
  refine lands_run (take_cons hcolon _ _) (lands_run (Name.production_cons htype _ _) ?_)
  refine lands_bind (lands_default? (matches_all_singleton.mp hrest) hks) ?_
  rintro value _ rfl
  exact lands_pure _ rfl

theorem lands_afterImport {token : Token}
    (h : Matches (.all [.name, .word .FROM, .kind .string]) us) :
    Lands (afterImport token) (us ++ ks) (· = ks) := by
  obtain ⟨name, _, rfl, hname, hrest⟩ := matches_all_kind_cons.mp h
  obtain ⟨announcement, _, rfl, hfrom, hrest⟩ := matches_all_kind_cons.mp hrest
  obtain ⟨path, rfl, hpath⟩ := matches_kind_iff.mp (matches_all_singleton.mp hrest)
  refine lands_run (Name.production_cons hname _ _) (lands_run (take_cons hfrom _ _) ?_)
  exact lands_run (TextLiteral.production_cons hpath _ _) (lands_pure _ rfl)

theorem lands_afterExport {token : Token} (h : Matches (.all [.name]) us) :
    Lands (afterExport token) (us ++ ks) (· = ks) := by
  obtain ⟨name, rfl, hname⟩ := matches_kind_iff.mp (matches_all_singleton.mp h)
  exact lands_run (Name.production_cons hname _ _) (lands_pure _ rfl)

/-- The first token of a statement of the grammar selects the production that reads the rest. -/
theorem body_of_matches {semicolon : Token} (h : Matches .statementBody us)
    (hsemicolon : semicolon.kind = .punctuation .semicolon) (ks : List Token) :
    ∃ t vs body, us = t :: vs ∧ body? t = some body ∧
      Lands body (vs ++ semicolon :: ks) (· = semicolon :: ks) := by
  have hsource : Avoids Source.tails (semicolon :: ks) :=
    avoids_cons (by simp [hsemicolon, Source.tails, Source.joinWords])
  have hequal : Avoids [.punctuation .equal] (semicolon :: ks) :=
    avoids_cons (by simp [hsemicolon])
  simp only [Form.statementBody, matches_any, List.mem_cons, List.not_mem_nil, or_false,
    exists_eq_or_imp, exists_eq_left] at h
  rcases h with h | h | h | h | h | h <;>
    obtain ⟨t, vs, rfl, ht, hrest⟩ := matches_all_kind_cons.mp h
  · exact ⟨t, vs, afterName (.ofToken t), rfl, by simp [body?, ht], lands_afterName hrest hsource⟩
  · exact ⟨t, vs, afterOutput t, rfl, by simp [body?, ht], lands_afterOutput hrest⟩
  · exact ⟨t, vs, afterParam t, rfl, by simp [body?, ht], lands_afterParam hrest hequal⟩
  · exact ⟨t, vs, afterAt t, rfl, by simp [body?, ht], lands_afterAt hrest⟩
  · exact ⟨t, vs, afterImport t, rfl, by simp [body?, ht], lands_afterImport hrest⟩
  · exact ⟨t, vs, afterExport t, rfl, by simp [body?, ht], lands_afterExport hrest⟩

end Statement

namespace Script

variable (final : Token) {us ts : List Token}

/-- A statement of the grammar is read in one round, whatever comes behind it. -/
theorem round_of_matches (h : Matches (.symbol .statement) us) (rest : List Token) :
    ∃ t vs statement, us = t :: vs ∧ round final t (vs ++ rest) = (.ok statement, rest) := by
  obtain ⟨ws, _, rfl, hbody, hclose⟩ := matches_all_cons.mp (matches_symbol.mp h)
  obtain ⟨semicolon, rfl, hkind⟩ := matches_kind_iff.mp (matches_all_singleton.mp hclose)
  obtain ⟨t, vs, body, rfl, ht, statement, behind, hrun, rfl⟩ :=
    Statement.body_of_matches hbody hkind rest
  refine ⟨t, vs ++ [semicolon], statement, rfl, round_eq_ok_iff.mpr ⟨body, ht, ?_⟩⟩
  rw [List.append_assoc, Statement.closed, List.singleton_append, bind_of_ok hrun]
  exact bind_of_ok (take_cons hkind _ _)

theorem no_errors_of_matches (h : Matches (.many (.symbol .statement)) ts) :
    (readStatements final ts).2 = [] := by
  obtain ⟨parts, rfl, hparts⟩ := h.parts
  clear h
  induction parts with
  | nil => simp [readStatements]
  | cons us parts ih =>
      obtain ⟨hus, hrest⟩ := List.forall_mem_cons.mp hparts
      obtain ⟨t, vs, statement, rfl, hround⟩ := round_of_matches final hus parts.flatten
      rw [List.flatten_cons, List.cons_append, readStatements_of_ok hround]
      exact ih hrest

end Script

/-- Reading reports no error if and only if the kinds of the tokens in front of the end of the text
are a word of the grammar. -/
theorem parse_errors_eq_nil_iff_derives (ts : List Token) :
    (parse ts).errors = [] ↔
      Derives (.symbol .script) ((ts.takeWhile fun t => t.kind != .endOfFile).map Token.kind) := by
  rw [derives_symbol]
  exact ⟨Script.matches_of_no_errors _, Script.no_errors_of_matches _⟩

end RecordFlow
