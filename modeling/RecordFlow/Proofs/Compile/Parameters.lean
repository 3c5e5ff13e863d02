/-
# The parameters of join conditions

The condition of a join becomes a function with two parameters, one for each side. A side that is
itself a join is taken apart into its namespaces, any other side is seen under the one namespace
that it has, and a side without namespaces under a word of rendering's own, `left` or `right`.

Rendering refuses a join whose sides share a namespace. Every join below it has passed the same
check, so no side has a namespace twice. But the two words are not compared with anything: if a side
has no namespace, and its word is a namespace of the other side, then the function has two
parameters of one name. There is no other way to get them.
-/

import Mathlib.Data.List.Nodup
import RecordFlow.Proofs.Compile.Extension
import RecordFlow.Proofs.Compile.Layout
import RecordFlow.Proofs.Render.Namespaces
import RecordFlow.Proofs.Script.Nodes

namespace RecordFlow

/-- The longest runs of letters, digits and underscores, from left to right. -/
def wordRuns (cs : List Char) : List (List Char) :=
  (cs.splitOnP fun c => !Scan.isWordChar c).filter (· ≠ [])

/-- The names that are introduced by a text of names, braces, commas and blanks. -/
def namesIn (text : String) : List String := (wordRuns text.toList).map String.ofList

theorem wordRuns_append_break {c : Char} (hc : Scan.isWordChar c = false) (xs ys : List Char) :
    wordRuns (xs ++ c :: ys) = wordRuns xs ++ wordRuns ys := by
  unfold wordRuns
  rw [List.splitOnP_append_cons xs ys (by rw [hc]; rfl), List.filter_append]

theorem wordRuns_cons_break {c : Char} (hc : Scan.isWordChar c = false) (cs : List Char) :
    wordRuns (c :: cs) = wordRuns cs :=
  wordRuns_append_break hc [] cs

theorem wordRuns_of_isWord {cs : List Char} (h : Scan.IsWord cs) : wordRuns cs = [cs] := by
  obtain ⟨hne, hword⟩ := h.isWordChar
  rw [wordRuns, List.splitOnP_eq_singleton fun c hc => by rw [hword c hc]; rfl]
  simp [hne]

theorem namesIn_of_isWord {name : String} (h : Scan.IsWord name.toList) :
    namesIn name = [name] := by
  simp [namesIn, wordRuns_of_isWord h]

/-- Names with commas and blanks between them are found again. -/
theorem wordRuns_intercalate {names : List String} (h : ∀ name ∈ names, Scan.IsWord name.toList) :
    wordRuns (", ".intercalate names).toList = names.map String.toList := by
  have hcomma : Scan.isWordChar ',' = false := by decide +kernel
  have hblank : Scan.isWordChar ' ' = false := by decide +kernel
  induction names with
  | nil => rfl
  | cons name rest ih =>
      obtain ⟨hname, hrest⟩ := List.forall_mem_cons.mp h
      cases rest with
      | nil => exact wordRuns_of_isWord hname
      | cons next rest =>
          have htext : (", ".intercalate (name :: next :: rest)).toList =
              name.toList ++ ',' :: ' ' :: (", ".intercalate (next :: rest)).toList := by
            simp [String.intercalate_cons_cons]
          rw [htext, wordRuns_append_break hcomma, wordRuns_cons_break hblank,
            wordRuns_of_isWord hname, ih hrest]
          rfl

/-- Names in braces are found again. -/
theorem namesIn_braces {names : List String} (h : ∀ name ∈ names, Scan.IsWord name.toList) :
    namesIn ("\x7b " ++ ", ".intercalate names ++ " \x7d") = names := by
  have hopen : Scan.isWordChar '{' = false := by decide +kernel
  have hblank : Scan.isWordChar ' ' = false := by decide +kernel
  have hclose : Scan.isWordChar '}' = false := by decide +kernel
  have htext : ("\x7b " ++ ", ".intercalate names ++ " \x7d").toList =
      '{' :: ' ' :: ((", ".intercalate names).toList ++ ' ' :: ['}']) := by
    simp
  rw [namesIn, htext, wordRuns_cons_break hopen, wordRuns_cons_break hblank,
    wordRuns_append_break hblank, wordRuns_cons_break hclose, wordRuns_intercalate h]
  simp [wordRuns]

namespace Source

/-- The names under which a join condition sees a side. -/
def parameterNames (side : Source) (fallback : String) : List String :=
  if side.namespaces = [] then [fallback] else side.namespaces.map Name.text

/-- A side without namespaces, whose fallback is a namespace of the other side. -/
def FallsOn (side other : Source) (fallback : String) : Prop :=
  side.namespaces = [] ∧ fallback ∈ other.namespaces.map Name.text

instance (side other : Source) (fallback : String) : Decidable (side.FallsOn other fallback) :=
  inferInstanceAs (Decidable (_ ∧ _))

/-- A parameter introduces the namespaces of its side, or else the fallback. -/
theorem namesIn_parameter {side : Source} (fallback : String)
    (hnames : ∀ name ∈ side.namespaces, Scan.IsWord name.text.toList)
    (hfallback : Scan.IsWord fallback.toList) :
    namesIn (side.parameter fallback) = side.parameterNames fallback := by
  cases side with
  | file token choice path => exact namesIn_of_isWord hfallback
  | select token choice inner filter? => exact namesIn_of_isWord hfallback
  | named name => exact namesIn_of_isWord (hnames name List.mem_cons_self)
  | aliased token inner name => exact namesIn_of_isWord (hnames name List.mem_cons_self)
  | join token left right condition =>
      unfold parameter parameterNames
      generalize (join token left right condition).namespaces = names at hnames
      cases names with
      | nil => exact namesIn_of_isWord hfallback
      | cons name rest => exact namesIn_braces (List.forall_mem_map.mpr hnames)

theorem nodup_parameterNames {side : Source} (h : (side.namespaces.map Name.text).Nodup)
    (fallback : String) : (side.parameterNames fallback).Nodup := by
  unfold parameterNames
  split
  · exact List.nodup_singleton fallback
  · exact h

/-- The names of two parameters are distinct if the namespaces of the two sides are, unless a side
without namespaces falls back on one of them. -/
theorem nodup_parameterNames_iff {left right : Source}
    (h : (left.namespaces.map Name.text ++ right.namespaces.map Name.text).Nodup) :
    (left.parameterNames "left" ++ right.parameterNames "right").Nodup ↔
      ¬left.FallsOn right "left" ∧ ¬right.FallsOn left "right" := by
  obtain ⟨hleft, hright, -⟩ := List.nodup_append.mp h
  unfold parameterNames FallsOn
  by_cases hnoLeft : left.namespaces = []
  · by_cases hnoRight : right.namespaces = []
    · simp [hnoLeft, hnoRight]
    · simp [hnoLeft, hnoRight, hright]
  · by_cases hnoRight : right.namespaces = []
    · simp [hnoLeft, hnoRight, List.nodup_append, hleft]
    · rw [if_neg hnoLeft, if_neg hnoRight]
      exact iff_of_true h ⟨fun hfalls => hnoLeft hfalls.1, fun hfalls => hnoRight hfalls.1⟩

end Source

/-- A token that carries a word if it is a name. -/
def Token.Worded (t : Token) : Prop :=
  t.kind = .identifier → Scan.IsWord (t.text?.getD "").toList

theorem worded_of_tokenize {source : String} {ts : List Token} (h : tokenize source = .ok ts) :
    ∀ t ∈ ts, t.Worded := by
  intro t ht hkind
  obtain ⟨word, hvalue, hword, -⟩ := (paired_of_tokenize h t ht).word hkind
  have htext : t.text? = some word := by rw [Token.text?, hvalue]
  rw [htext]
  exact hword

namespace Source

theorem wellFormed_of_mem_namespaces {s : Source} (h : s.WellFormed) :
    ∀ name ∈ s.namespaces, name.WellFormed := by
  induction s with
  | file token choice path => exact List.forall_mem_nil _
  | named name => exact List.forall_mem_singleton.mpr h
  | select token choice inner filter? _ => exact List.forall_mem_nil _
  | aliased token inner name _ => exact List.forall_mem_singleton.mpr h.2.2
  | join token left right condition ihleft ihright =>
      exact List.forall_mem_append.mpr ⟨ihleft h.2.1, ihright h.2.2.1⟩

/-- A well-formed source in which the names are words. -/
def Worded (s : Source) : Prop := s.WellFormed ∧ ∀ t ∈ s.tokens, t.Worded

namespace Worded

theorem namespaces {s : Source} (h : s.Worded) :
    ∀ name ∈ s.namespaces, Scan.IsWord name.text.toList := by
  intro name hname
  obtain ⟨hkind, htext⟩ := wellFormed_of_mem_namespaces h.1 name hname
  rw [htext]
  exact h.2 name.token (token_mem_of_mem_namespaces hname) hkind

theorem joinNodes {s : Source} (h : s.Worded) : ∀ join ∈ s.joinNodes, join.source.Worded := by
  induction s with
  | file token choice path => exact List.forall_mem_nil _
  | named name => exact List.forall_mem_nil _
  | select token choice inner filter? ih =>
      exact ih ⟨h.1.2.2.1, fun t ht => h.2 t (by simp [tokens, ht])⟩
  | aliased token inner name ih =>
      exact ih ⟨h.1.2.1, fun t ht => h.2 t (by simp [tokens, ht])⟩
  | join token left right condition ihleft ihright =>
      have hleft : left.Worded := ⟨h.1.2.1, fun t ht => h.2 t (by simp [tokens, ht])⟩
      have hright : right.Worded := ⟨h.1.2.2.1, fun t ht => h.2 t (by simp [tokens, ht])⟩
      have hsides := List.forall_mem_append.mpr ⟨ihleft hleft, ihright hright⟩
      exact List.forall_mem_append.mpr ⟨hsides, List.forall_mem_singleton.mpr h⟩

end Worded

end Source

theorem Statement.worded_of_mem_joinNodes {st : Statement} (h : st.WellFormed)
    (hworded : ∀ t ∈ st.tokens, t.Worded) : ∀ join ∈ st.joinNodes, join.source.Worded := by
  cases st with
  | assign name input =>
      have hinput : input.Worded := ⟨h.2, fun t ht => hworded t (by simp [tokens, ht])⟩
      exact hinput.joinNodes
  | output token input path =>
      have hinput : input.Worded := ⟨h.2.1, fun t ht => hworded t (by simp [tokens, ht])⟩
      exact hinput.joinNodes
  | _ => exact List.forall_mem_nil _

/-- The joins in a script that is read have words for namespaces. -/
theorem worded_of_readScript {source : String} {script : Script}
    (h : readScript source = .ok script) : ∀ join ∈ script.joinNodes, join.source.Worded := by
  obtain ⟨ts, hts, -, rfl⟩ := readScript_eq_ok_iff.mp h
  obtain ⟨-, hworded, -⟩ :=
    tokens_of_parse (worded_of_tokenize hts) (exists_isFinal_of_tokenize hts)
  intro join hjoin
  obtain ⟨st, hst, hjoin⟩ := List.mem_flatMap.mp hjoin
  exact Statement.worded_of_mem_joinNodes (parse_wellFormed ts st hst) (hworded st hst) join hjoin

namespace Render

variable {library : Library} {context next : Context} {text : String}

/-- Joins are rendered only if no namespace is on both sides, so what is rendered has no namespace
twice. -/
theorem Joined.nodup_namespaces {s : Source} {fillings : List Filling}
    (h : Joined library s context fillings text next) : (s.namespaces.map Name.text).Nodup := by
  induction h with
  | file _ _ => exact List.nodup_nil
  | named _ _ => exact List.nodup_singleton _
  | select _ _ _ _ => exact List.nodup_nil
  | aliased _ _ => exact List.nodup_singleton _
  | join _ _ _ hdisjoint _ _ ihleft ihright =>
      rw [Source.namespaces, List.map_append]
      refine List.nodup_append.mpr ⟨ihleft, ihright, List.forall_mem_map.mpr fun a ha => ?_⟩
      exact List.forall_mem_map.mpr fun b hb => hdisjoint a ha b hb

/-- Every join of rendered statements has a function, and was rendered along with it. -/
theorem wired_of_mem_joinNodes {script : Script} {texts : List String} {final : Context}
    (h : script.statements.mapM (statement library) .empty = .ok (texts, final)) :
    ∀ join ∈ script.joinNodes, ∃ number context function piece,
      final.conditions[number]? = some function ∧
        Wired library number ⟨join, context⟩ function piece := by
  intro join hjoin
  obtain ⟨functions, hconditions, hwired⟩ :=
    wired_statements h fun _ htext => Text.Holds.intercalate htext "\n"
  rw [Script.joinNodes, ← join_statementsVisits library script.statements .empty] at hjoin
  obtain ⟨⟨_, context⟩, hvisit, rfl⟩ := List.mem_map.mp hjoin
  obtain ⟨j, hj⟩ := List.mem_iff_getElem?.mp hvisit
  obtain ⟨function, piece, hfunction, hself, -⟩ := hwired.getElem? hj
  refine ⟨Context.empty.conditions.length + j, context, function, piece, ?_, hself⟩
  rw [hconditions, List.getElem?_append_right (Nat.le_add_right _ j), Nat.add_sub_cancel_left]
  exact hfunction

end Render

/-- Where a source compiles, every join in it has a function for its condition. The parameter of a
side introduces the namespaces of the side, or `left` or `right` if it has none, and no name twice.
The two parameters have no name in common either, but for one case: a side has no namespace, and the
word for this side is a namespace of the other. -/
theorem condition_parameters_nodup_iff (library : Library) (source text : String)
    (h : compile library source = .ok text) :
    ∃ script texts final, readScript source = .ok script ∧
      script.statements.mapM (Render.statement library) .empty = .ok (texts, final) ∧
      ∀ join ∈ script.joinNodes,
        let left := join.left.parameter "left"
        let right := join.right.parameter "right"
        (∃ number function, final.conditions[number]? = some function ∧
          Render.snippet library .joinCondition join.condition.token
            [("name", numbered "condition" number), ("left", left), ("right", right),
              ("condition", join.condition.code)] = .ok function) ∧
        namesIn left = join.left.parameterNames "left" ∧ (namesIn left).Nodup ∧
        namesIn right = join.right.parameterNames "right" ∧ (namesIn right).Nodup ∧
        ((namesIn left ++ namesIn right).Nodup ↔
          ¬join.left.FallsOn join.right "left" ∧ ¬join.right.FallsOn join.left "right") := by
  obtain ⟨script, hread, hrender⟩ := compile_eq_ok_iff.mp h
  rw [Render.render_eq] at hrender
  obtain ⟨⟨texts, final⟩, hstatements, -⟩ := Render.ok_of_bind hrender
  refine ⟨script, texts, final, hread, hstatements, fun join hjoin => ?_⟩
  obtain ⟨number, context, function, piece, hfunction, hwired⟩ :=
    Render.wired_of_mem_joinNodes hstatements join hjoin
  obtain ⟨_, _, _, _, _, _, _, -, -, -, -, -, hsnippet, -, hsource⟩ := hwired
  obtain ⟨hwordsLeft, hwordsRight⟩ :=
    List.forall_mem_append.mp (worded_of_readScript hread join hjoin).namespaces
  have hleft := Source.namesIn_parameter "left" hwordsLeft (by decide +kernel)
  have hright := Source.namesIn_parameter "right" hwordsRight (by decide +kernel)
  obtain ⟨_, hjoined⟩ := Render.joined_of_rendered hsource rfl
  have hnodup : (join.left.namespaces.map Name.text ++ join.right.namespaces.map Name.text).Nodup :=
    List.map_append ▸ hjoined.nodup_namespaces
  obtain ⟨hnodupLeft, hnodupRight, -⟩ := List.nodup_append.mp hnodup
  refine ⟨⟨number, function, hfunction, hsnippet⟩, hleft, ?_, hright, ?_, ?_⟩
  · rw [hleft]
    exact Source.nodup_parameterNames hnodupLeft "left"
  · rw [hright]
    exact Source.nodup_parameterNames hnodupRight "right"
  · rw [hleft, hright]
    exact Source.nodup_parameterNames_iff hnodup

/-- The namespaces `left` and `right`, where no side without a namespace is seen under the same
word. -/
theorem condition_parameters_nodup_words :
    let source := "a = EXTRACT * FROM \"f\"; " ++
      "b = SELECT * FROM (SELECT * FROM a) INNER JOIN a AS right ON \x7b\x7bx\x7d\x7d " ++
        "LEFT JOIN a AS left ON \x7b\x7by\x7d\x7d;"
    ∃ text script, compile .builtin source = .ok text ∧ readScript source = .ok script ∧
      script.joinNodes.map (fun join => join.left.parameter "left") = ["left", "\x7b right \x7d"] ∧
      script.joinNodes.map (fun join => join.right.parameter "right") = ["right", "left"] ∧
      ∀ join ∈ script.joinNodes,
        (namesIn (join.left.parameter "left") ++ namesIn (join.right.parameter "right")).Nodup := by
  intro source
  have hscoped : (readScript source).toOption.any fun script => script.WellScoped := by
    decide +kernel
  have hjoins : (readScript source).toOption.any fun script =>
      script.joinNodes.map (fun join => join.left.parameter "left") =
          ["left", "\x7b right \x7d"] ∧
        script.joinNodes.map (fun join => join.right.parameter "right") = ["right", "left"] ∧
        ∀ join ∈ script.joinNodes,
          ¬join.left.FallsOn join.right "left" ∧ ¬join.right.FallsOn join.left "right" := by
    decide +kernel
  obtain ⟨text, hcompile⟩ := compile_of_wellScoped Library.builtin_complete hscoped
  obtain ⟨script, _, _, hread, -, hnodup⟩ :=
    condition_parameters_nodup_iff .builtin source text hcompile
  rw [hread] at hjoins
  obtain ⟨hleft, hright, hfree⟩ := of_decide_eq_true hjoins
  refine ⟨text, script, hcompile, hread, hleft, hright, fun join hjoin => ?_⟩
  obtain ⟨-, -, -, -, -, hiff⟩ := hnodup join hjoin
  exact hiff.mpr (hfree join hjoin)

/-- A selection without a namespace next to the namespace `left`: the source compiles, and both
parameters of the function are named `left`. -/
theorem condition_parameters_left_twice :
    let source := "a = EXTRACT * FROM \"f\"; " ++
      "b = SELECT * FROM (SELECT * FROM a) INNER JOIN a AS left ON \x7b\x7bx\x7d\x7d;"
    (∃ text, compile .builtin source = .ok text) ∧
      (readScript source).toOption.map (fun script => script.joinNodes.map fun join =>
        (namesIn (join.left.parameter "left"), namesIn (join.right.parameter "right"))) =
          some [(["left"], ["left"])] := by
  intro source
  have hscoped : (readScript source).toOption.any fun script => script.WellScoped := by
    decide +kernel
  exact ⟨compile_of_wellScoped Library.builtin_complete hscoped, by decide +kernel⟩

end RecordFlow
