/-
# The one reading of a template

Which parts of a template are placeholders is said here without a reader: a template is cut into
runs of text and placeholders such that no placeholder of the template begins inside a run. A
placeholder tells its key, since nothing that closes one can be mistaken for more of the key. So
where a placeholder begins there is one only, and a template has one cut, but for the ways to divide
a run. The keys of a template and what filling it gives are those of this cut.
-/

import Mathlib.Data.List.Forall2
import Mathlib.Data.List.Induction
import RecordFlow.Proofs.Snippet.Complete

namespace RecordFlow

namespace Template

/-- What may follow the first letter of a key: letters and digits, each with at most one underscore
in front. -/
inductive IsKeyTail : List Char → Prop
  | nil : IsKeyTail []
  | plain {c : Char} {tail : List Char} (hc : c.isAlphanum) (h : IsKeyTail tail) :
      IsKeyTail (c :: tail)
  | underscore {c : Char} {tail : List Char} (hc : c.isAlphanum) (h : IsKeyTail tail) :
      IsKeyTail ('_' :: c :: tail)

/-- A letter and what may follow it. -/
inductive IsKey : List Char → Prop
  | letter {c : Char} {tail : List Char} (hc : c.isAlpha) (h : IsKeyTail tail) : IsKey (c :: tail)

/-- A text that begins with a placeholder. -/
def Begins (cs : List Char) : Prop :=
  ∃ (form : Form) (key : List Char), IsKey key ∧ form.opening ++ (key ++ form.closing) <+: cs

variable {cs rest key tail text : List Char} {form : Form} {piece : Piece}

theorem isKeyTail_keyTail (cs : List Char) : IsKeyTail (keyTail cs).1 := by
  fun_induction keyTail cs with
  | case1 c rest hc more ih => exact .underscore hc ih
  | case2 => exact .nil
  | case3 c rest _ hc more ih => exact .plain hc ih
  | case4 => exact .nil
  | case5 => exact .nil

theorem keyTail_plain {c : Char} (hc : c.isAlphanum) (cs : List Char) :
    keyTail (c :: cs) = (c :: (keyTail cs).1, (keyTail cs).2) := by
  have hplain : ∀ d rest, c = '_' → cs = d :: rest → False := by
    rintro d rest rfl -
    exact absurd hc (by decide)
  rw [keyTail.eq_2 c cs hplain, if_pos hc]

/-- A continuation of a key is read whole if nothing behind it continues it. -/
theorem keyTail_append_of_stop (htail : IsKeyTail tail) (hstop : keyTail rest = ([], rest)) :
    keyTail (tail ++ rest) = (tail, rest) := by
  induction htail with
  | nil => exact hstop
  | plain hc _ ih => rw [List.cons_append, keyTail_plain hc, ih]
  | underscore hc _ ih => rw [List.cons_append, List.cons_append, keyTail, if_pos hc, ih]

/-- What closes a placeholder does not continue its key. -/
theorem keyTail_closing (form : Form) (rest : List Char) :
    keyTail (form.closing ++ rest) = ([], form.closing ++ rest) := by
  cases form <;> rfl

theorem splitKey?_closing (hkey : IsKey key) (form : Form) (rest : List Char) :
    splitKey? (key ++ (form.closing ++ rest)) = some (key, form.closing ++ rest) := by
  cases hkey with
  | letter hc htail =>
      rw [List.cons_append, splitKey?, if_pos hc,
        keyTail_append_of_stop htail (keyTail_closing form rest)]

theorem isKey_of_splitKey? (h : splitKey? cs = some (key, rest)) : IsKey key := by
  cases cs with
  | nil => cases h
  | cons c cs =>
      rw [splitKey?] at h
      split at h
      · next hc =>
          cases h
          exact .letter hc (isKeyTail_keyTail cs)
      · cases h

theorem behind?_append_self (expected rest : List Char) :
    behind? expected (expected ++ rest) = some rest := by
  have hbegins := List.isPrefixOf_iff_prefix.mpr (List.prefix_append expected rest)
  rw [behind?, if_pos hbegins, List.drop_left]

/-- A placeholder is found if it stands at the beginning of the text, and it is the one that stands
there: a key is never cut short. -/
theorem placeholderOf?_eq_some_iff :
    placeholderOf? form cs = some (piece, rest) ↔
      ∃ key, IsKey key ∧ piece = .placeholder form key ∧
        cs = form.opening ++ (key ++ (form.closing ++ rest)) := by
  constructor
  · intro h
    have happend := placeholderOf?_append h
    obtain ⟨inner, -, h⟩ := Option.bind_eq_some_iff.mp h
    obtain ⟨⟨key, behindKey⟩, hkey, h⟩ := Option.bind_eq_some_iff.mp h
    obtain ⟨_, -, h⟩ := Option.bind_eq_some_iff.mp h
    cases h
    refine ⟨key, isKey_of_splitKey? hkey, rfl, ?_⟩
    rw [← happend, Piece.source, List.append_assoc, List.append_assoc]
  · rintro ⟨key, hkey, rfl, rfl⟩
    simp only [placeholderOf?, behind?_append_self, splitKey?_closing hkey, Option.bind_eq_bind,
      Option.bind_some, Option.pure_def]

/-- The two forms begin with different characters. -/
theorem placeholderOf?_comment_underscores (cs : List Char) :
    placeholderOf? .comment (Form.opening .underscores ++ cs) = none := rfl

theorem placeholder?_eq_some_iff :
    placeholder? cs = some (piece, rest) ↔
      ∃ form key, IsKey key ∧ piece = .placeholder form key ∧
        cs = form.opening ++ (key ++ (form.closing ++ rest)) := by
  unfold placeholder?
  constructor
  · intro h
    split at h
    · next found hfound =>
        cases h
        exact ⟨.comment, placeholderOf?_eq_some_iff.mp hfound⟩
    · exact ⟨.underscores, placeholderOf?_eq_some_iff.mp h⟩
  · rintro ⟨form, hform⟩
    have hfound := placeholderOf?_eq_some_iff.mpr hform
    cases form with
    | comment => rw [hfound]
    | underscores =>
        obtain ⟨key, -, -, rfl⟩ := hform
        rw [placeholderOf?_comment_underscores]
        exact hfound

theorem begins_iff : Begins cs ↔ ∃ found, placeholder? cs = some found := by
  constructor
  · rintro ⟨form, key, hkey, rest, rfl⟩
    refine ⟨(.placeholder form key, rest), placeholder?_eq_some_iff.mpr ⟨form, key, hkey, rfl, ?_⟩⟩
    rw [List.append_assoc, List.append_assoc]
  · rintro ⟨⟨piece, rest⟩, hfound⟩
    obtain ⟨form, key, hkey, -, rfl⟩ := placeholder?_eq_some_iff.mp hfound
    refine ⟨form, key, hkey, rest, ?_⟩
    rw [List.append_assoc, List.append_assoc]

theorem not_begins_iff : ¬Begins cs ↔ placeholder? cs = none := by
  rw [begins_iff, Option.eq_none_iff_forall_ne_some, not_exists]

theorem cut_placeholder (hkey : IsKey key) (form : Form) (rest : List Char) :
    cut (form.opening ++ (key ++ (form.closing ++ rest))) = .placeholder form key :: cut rest := by
  have hfound : placeholder? (form.opening ++ (key ++ (form.closing ++ rest))) = _ :=
    placeholder?_eq_some_iff.mpr ⟨form, key, hkey, rfl, rfl⟩
  generalize form.opening ++ (key ++ (form.closing ++ rest)) = cs at hfound
  cases cs with
  | nil => cases hfound
  | cons c cs =>
      rw [cut]
      split
      · next heq =>
          rw [hfound] at heq
          cases heq
          rfl
      · next heq =>
          rw [hfound] at heq
          cases heq

theorem cut_literal {c : Char} (h : ¬Begins (c :: cs)) : cut (c :: cs) = .literal c :: cut cs := by
  rw [not_begins_iff] at h
  rw [cut]
  split
  · next heq =>
      rw [h] at heq
      cases heq
  · rfl

/-! ## Cuts of a template

A cut is described without the function that finds it. Where a placeholder begins, it is taken, so
none is left to begin inside a run. -/

/-- A part of a template: a run of text that stands for itself, or a place to fill. -/
inductive Part
  | run (text : List Char)
  | placeholder (form : Form) (key : List Char)

namespace Part

/-- How the part is written. -/
def source : Part → List Char
  | run text => text
  | placeholder form key => form.opening ++ (key ++ form.closing)

/-- The key of a placeholder. -/
def key? : Part → Option String
  | run _ => none
  | placeholder _ key => some (String.ofList key)

/-- The part with its text, if it is a run, taken apart into characters. -/
def pieces : Part → List Piece
  | run text => text.map .literal
  | placeholder form key => [.placeholder form key]

end Part

/-- The text of parts in a row. -/
def written (parts : List Part) : List Char := parts.flatMap Part.source

/-- The keys of parts in a row, one for each placeholder. -/
def mentioned (parts : List Part) : List String := parts.filterMap Part.key?

/-- Parts that make up a text, with a key in each placeholder, and such that no placeholder of the
text begins inside a run. -/
structure Cuts (parts : List Part) (cs : List Char) : Prop where
  whole : written parts = cs
  keyed : ∀ form key, .placeholder form key ∈ parts → IsKey key
  leftmost : ∀ before text after, parts = before ++ .run text :: after →
    ∀ i < text.length, ¬Begins (cs.drop ((written before).length + i))

variable {parts : List Part}

theorem cuts_nil : Cuts [] [] := by
  refine ⟨rfl, nofun, fun before text after h => ?_⟩
  simp at h

theorem written_cons (part : Part) (parts : List Part) :
    written (part :: parts) = part.source ++ written parts :=
  List.flatMap_cons

/-- What a cut asks of a part with `rest` behind it. -/
def Part.Fits (rest : List Char) : Part → Prop
  | run text => ∀ i < text.length, ¬Begins ((text ++ rest).drop i)
  | placeholder _ key => IsKey key

/-- A place behind the first part, counted from the beginning of that part. -/
theorem drop_behind (part : Part) (before : List Part) (i : Nat) (rest : List Char) :
    (part.source ++ rest).drop ((written (part :: before)).length + i) =
      rest.drop ((written before).length + i) := by
  rw [written_cons, List.length_append, Nat.add_assoc, List.drop_append,
    List.drop_eq_nil_of_le (Nat.le_add_right _ _), List.nil_append, Nat.add_sub_cancel_left]

/-- A cut is a matter of its parts one by one. -/
theorem cuts_cons_iff {part : Part} :
    Cuts (part :: parts) cs ↔
      ∃ rest, cs = part.source ++ rest ∧ part.Fits rest ∧ Cuts parts rest := by
  constructor
  · intro h
    have hwhole : cs = part.source ++ written parts := by rw [← h.whole, written_cons]
    refine ⟨written parts, hwhole, ?_, rfl, ?_, ?_⟩
    · cases part with
      | run text =>
          have hfree := h.leftmost [] text parts rfl
          simp only [hwhole, written, List.flatMap_nil, List.length_nil, Nat.zero_add] at hfree
          exact hfree
      | placeholder form key => exact h.keyed form key List.mem_cons_self
    · intro form key hmem
      exact h.keyed form key (List.mem_cons_of_mem part hmem)
    · intro before text after heq i hi
      have hfree := h.leftmost (part :: before) text after (by rw [heq, List.cons_append]) i hi
      rwa [hwhole, drop_behind] at hfree
  · rintro ⟨rest, rfl, hfits, h⟩
    refine ⟨by rw [written_cons, h.whole], ?_, ?_⟩
    · intro form key hmem
      rcases List.mem_cons.mp hmem with rfl | hmem
      · exact hfits
      · exact h.keyed form key hmem
    · intro before text after heq i hi
      cases before with
      | nil =>
          obtain ⟨rfl, -⟩ := List.cons.inj heq
          rw [written, List.flatMap_nil, List.length_nil, Nat.zero_add]
          exact hfits i hi
      | cons first before =>
          obtain ⟨rfl, hparts⟩ := List.cons.inj heq
          rw [drop_behind]
          exact h.leftmost before text after hparts i hi

/-- A run in which no placeholder begins is read character by character. -/
theorem cut_run (hfree : ∀ i < text.length, ¬Begins ((text ++ rest).drop i)) :
    cut (text ++ rest) = text.map .literal ++ cut rest := by
  induction text with
  | nil => rfl
  | cons c text ih =>
      have hhere : ¬Begins (c :: (text ++ rest)) := hfree 0 (Nat.zero_lt_succ _)
      rw [List.cons_append, cut_literal hhere, List.map_cons, List.cons_append,
        ih fun i hi => hfree (i + 1) (Nat.succ_lt_succ hi)]

/-- Every cut of a text is the one that reading from the left finds, but for the ways to divide a
run. -/
theorem Cuts.pieces_eq (h : Cuts parts cs) : parts.flatMap Part.pieces = cut cs := by
  induction parts generalizing cs with
  | nil =>
      rw [← h.whole]
      exact cut.eq_1.symm
  | cons part parts ih =>
      obtain ⟨rest, rfl, hfits, hrest⟩ := cuts_cons_iff.mp h
      rw [List.flatMap_cons, ih hrest]
      cases part with
      | run text => exact (cut_run hfits).symm
      | placeholder form key =>
          rw [Part.source, List.append_assoc, List.append_assoc, cut_placeholder hfits]
          rfl

/-- A text has a cut. -/
theorem exists_cuts (cs : List Char) : ∃ parts, Cuts parts cs := by
  fun_induction cut cs with
  | case1 => exact ⟨[], cuts_nil⟩
  | case2 c rest piece behind h _ ih =>
      obtain ⟨parts, hparts⟩ := ih
      obtain ⟨form, key, hkey, -, heq⟩ := placeholder?_eq_some_iff.mp h
      refine ⟨.placeholder form key :: parts, cuts_cons_iff.mpr ⟨behind, ?_, hkey, hparts⟩⟩
      rw [heq, Part.source, List.append_assoc, List.append_assoc]
  | case3 c rest h ih =>
      obtain ⟨parts, hparts⟩ := ih
      refine ⟨.run [c] :: parts, cuts_cons_iff.mpr ⟨rest, rfl, fun i hi => ?_, hparts⟩⟩
      obtain rfl := Nat.lt_one_iff.mp hi
      exact not_begins_iff.mpr h

theorem key?_pieces (part : Part) : part.pieces.filterMap Piece.key? = part.key?.toList := by
  cases part with
  | run text => simp [Part.pieces, Part.key?, Piece.key?]
  | placeholder form key => rfl

theorem Cuts.keys_eq {template : String} (h : Cuts parts template.toList) :
    keys template = (mentioned parts).eraseDups := by
  rw [keys, ← h.pieces_eq, List.filterMap_flatMap]
  simp only [key?_pieces]
  rw [mentioned, List.filterMap_eq_flatMap_toList]

/-- Without repeats, what is left of a list stands in the order of first appearances. -/
theorem pairwise_idxOf_eraseDups (names : List String) :
    names.eraseDups.Pairwise fun a b => names.idxOf a < names.idxOf b := by
  induction names using List.reverseRecOn with
  | nil => exact List.Pairwise.nil
  | append_singleton names last ih =>
      rw [List.eraseDups_append, List.pairwise_append]
      refine ⟨ih.imp_of_mem fun {a b} ha hb hlt => ?_, ?_, ?_⟩
      · rwa [List.idxOf_append_of_mem (List.mem_eraseDups.mp ha),
          List.idxOf_append_of_mem (List.mem_eraseDups.mp hb)]
      · by_cases hlast : last ∈ names <;> simp [List.removeAll, hlast, List.eraseDups_cons]
      · intro a ha b hb
        have ha := List.mem_eraseDups.mp ha
        obtain ⟨hb, hnew⟩ : b = last ∧ b ∉ names := by
          simpa [List.removeAll] using List.mem_eraseDups.mp hb
        rw [List.idxOf_append_of_mem ha, List.idxOf_append, if_neg hnew]
        have := List.idxOf_lt_length_of_mem ha
        omega

/-! ## Filling -/

/-- What a part becomes when values are supplied: a run stays, and a placeholder becomes the first
value under its key, or stays where there is none. -/
inductive Part.FilledAs (values : List (String × String)) : Part → List Char → Prop
  | run (text : List Char) : FilledAs values (.run text) text
  | supplied {form : Form} {key : List Char} {value : String}
      {before after : List (String × String)}
      (hvalues : values = before ++ (String.ofList key, value) :: after)
      (hfirst : ∀ other ∈ before, other.1 ≠ String.ofList key) :
      FilledAs values (.placeholder form key) value.toList
  | kept {form : Form} {key : List Char} (h : ∀ value ∈ values, value.1 ≠ String.ofList key) :
      FilledAs values (.placeholder form key) (form.opening ++ (key ++ form.closing))

theorem filledAs_pieces (values : List (String × String)) (part : Part) :
    part.FilledAs values (part.pieces.flatMap (Piece.fill values)) := by
  cases part with
  | run text =>
      have htext : (text.map Piece.literal).flatMap (Piece.fill values) = text := by
        rw [List.flatMap_map]
        exact List.flatMap_singleton' text
      rw [Part.pieces, htext]
      exact .run text
  | placeholder form key =>
      rw [Part.pieces, List.flatMap_singleton, Piece.fill]
      cases hlookup : List.lookup (String.ofList key) values with
      | none =>
          refine .kept fun value hvalue => ?_
          exact (bne_iff_ne.mp (List.lookup_eq_none_iff.mp hlookup value hvalue)).symm
      | some value =>
          obtain ⟨before, after, hvalues, hfirst⟩ := List.lookup_eq_some_iff.mp hlookup
          exact .supplied hvalues fun other hother => (bne_iff_ne.mp (hfirst other hother)).symm

theorem Cuts.fill_eq {template : String} (h : Cuts parts template.toList)
    (values : List (String × String)) :
    ∃ texts, List.Forall₂ (Part.FilledAs values) parts texts ∧
      fill template values = String.ofList texts.flatten := by
  refine ⟨parts.map fun part => part.pieces.flatMap (Piece.fill values), ?_, ?_⟩
  · rw [List.forall₂_map_right_iff, List.forall₂_same]
    exact fun part _ => filledAs_pieces values part
  · rw [fill, ← h.pieces_eq, List.flatMap_assoc, List.flatMap_def]

end Template

/-- A value under a key that the template does not have is refused, the first such value. -/
theorem substitute_eq_missing_iff {snippet template key : String}
    {values : List (String × String)} :
    substitute snippet template values = .error (.missingPlaceholder snippet key) ↔
      ∃ before value after, values = before ++ (key, value) :: after ∧
        (∀ other ∈ before, other.1 ∈ Template.keys template) ∧ key ∉ Template.keys template := by
  have hfind : substitute snippet template values = .error (.missingPlaceholder snippet key) ↔
      ∃ value, values.find? (fun value => !(Template.keys template).contains value.1) =
        some (key, value) := by
    unfold substitute
    split
    · next found hfound =>
        rw [hfound]
        constructor
        · intro h
          cases h
          exact ⟨found.2, rfl⟩
        · rintro ⟨value, h⟩
          cases h
          rfl
    · next hnone =>
        rw [hnone]
        simp
  simp only [hfind, List.find?_eq_some_iff_append]
  constructor
  · rintro ⟨value, hkey, before, after, rfl, hbefore⟩
    exact ⟨before, value, after, rfl, by simpa using hbefore, by simpa using hkey⟩
  · rintro ⟨before, value, after, rfl, hbefore, hkey⟩
    exact ⟨value, by simpa using hkey, before, after, rfl, by simpa using hbefore⟩

/-- A template has a cut into runs of text and placeholders in which no placeholder begins inside a
run, and only one, but for the ways to divide a run. Its keys are those of the cut, in the order of
their first appearance. Filling refuses the first value whose key is none of them. Otherwise it
gives the parts of the cut, each placeholder replaced by the first value under its key. -/
theorem substitute_fills_leftmost_cut (template : String) :
    (∃ parts, Template.Cuts parts template.toList) ∧
    ∀ parts, Template.Cuts parts template.toList →
      (∀ others, Template.Cuts others template.toList →
        others.flatMap Template.Part.pieces = parts.flatMap Template.Part.pieces) ∧
      (∀ key, key ∈ Template.keys template ↔ key ∈ Template.mentioned parts) ∧
      (Template.keys template).Pairwise (fun a b =>
        (Template.mentioned parts).idxOf a < (Template.mentioned parts).idxOf b) ∧
      ∀ snippet values,
        (∀ key, substitute snippet template values = .error (.missingPlaceholder snippet key) ↔
          ∃ before value after, values = before ++ (key, value) :: after ∧
            (∀ other ∈ before, other.1 ∈ Template.keys template) ∧
            key ∉ Template.keys template) ∧
        ((∀ value ∈ values, value.1 ∈ Template.keys template) →
          ∃ texts, List.Forall₂ (Template.Part.FilledAs values) parts texts ∧
            substitute snippet template values = .ok (String.ofList texts.flatten)) := by
  refine ⟨Template.exists_cuts _, fun parts hparts => ⟨?_, ?_, ?_, fun snippet values => ⟨?_, ?_⟩⟩⟩
  · intro others hothers
    rw [hothers.pieces_eq, hparts.pieces_eq]
  · intro key
    rw [hparts.keys_eq, List.mem_eraseDups]
  · rw [hparts.keys_eq]
    exact Template.pairwise_idxOf_eraseDups _
  · intro key
    exact substitute_eq_missing_iff
  · intro hvalues
    obtain ⟨texts, hfilled, hfill⟩ := hparts.fill_eq values
    exact ⟨texts, hfilled, by rw [substitute_of_keys hvalues, hfill]⟩

/-- A key ends at two underscores, and what one placeholder took is not there for the next. -/
example :
    Template.keys "__a__b__ ___c_1__ /*%d%*/*%e%*/ __a__" = ["a", "c_1", "d"] := by
  decide +kernel

end RecordFlow
