/-
# Listing items line by line

A report puts the texts of its items one below the other. An item begins on a line of its own, but
its text may have line breaks, and then the item goes on for that many lines. So there is one line
for each item if and only if no text has a line break.
-/

import Mathlib.Data.List.Forall2
import RecordFlow.Proofs.Token.Lines

namespace RecordFlow

namespace Text

/-- The lines of a text, which its line breaks separate. -/
def lines (text : String) : List (List Char) := text.toList.splitOn '\n'

@[simp]
theorem breaks_append (first second : String) :
    breaks (first ++ second) = breaks first + breaks second := by
  simp [breaks]

theorem breaks_eq_zero_iff {text : String} : breaks text = 0 ↔ '\n' ∉ text.toList :=
  List.count_eq_zero

/-- A text without line breaks is one line. -/
theorem splitOn_of_not_mem {cs : List Char} (h : '\n' ∉ cs) : cs.splitOn '\n' = [cs] := by
  refine List.splitOnP_eq_singleton fun c hc => ?_
  exact beq_eq_false_iff_ne.mpr fun heq => h (heq ▸ hc)

/-- There is one line more than there are line breaks. -/
theorem length_lines (text : String) : (lines text).length = breaks text + 1 := by
  unfold lines breaks List.splitOn
  induction text.toList with
  | nil => rfl
  | cons c cs ih =>
      rw [List.splitOnP_cons_eq_if_modifyHead]
      by_cases hc : c = '\n'
      · simp [hc, ih]
      · simp [hc, ih]

/-- Texts one below the other have the lines of all of them. -/
theorem lines_intercalate {texts : List String} (h : texts ≠ []) :
    lines ("\n".intercalate texts) = texts.flatMap lines := by
  induction texts with
  | nil => exact absurd rfl h
  | cons text rest ih =>
      cases rest with
      | nil => simp [lines]
      | cons next rest =>
          have hrest := ih (List.cons_ne_nil next rest)
          have hbreak : "\n".toList = ['\n'] := rfl
          rw [List.flatMap_cons, ← hrest]
          simp [lines, String.toList_intercalate, hbreak, List.splitOn_append_cons_self]

/-- If a text begins with part of a line, its first line does. -/
theorem lines_begins {start text : String} (hbreak : breaks start = 0)
    (h : start.toList <+: text.toList) :
    ∃ first more, lines text = first :: more ∧ start.toList <+: first := by
  obtain ⟨rest, hrest⟩ := h
  have hstart := breaks_eq_zero_iff.mp hbreak
  unfold lines
  rw [← hrest]
  by_cases hmem : '\n' ∈ rest
  · obtain ⟨front, behind, rfl, hfront⟩ := List.eq_append_cons_of_mem hmem
    refine ⟨start.toList ++ front, behind.splitOn '\n', ?_, List.prefix_append _ _⟩
    have hfirst := splitOn_of_not_mem (List.not_mem_append hstart hfront)
    rw [← List.append_assoc, List.splitOn_append_cons_self, hfirst, List.singleton_append]
  · exact ⟨start.toList ++ rest, [], splitOn_of_not_mem (List.not_mem_append hstart hmem),
      List.prefix_append _ _⟩

end Text

namespace Report

/-- Lines in which items are listed. An item is what it begins with, on a line of its own, and the
number of lines for which it goes on. -/
inductive Lists : List (String × Nat) → List (List Char) → Prop
  | nil : Lists [] []
  | item {start : String} {first : List Char} (more : List (List Char))
      {items : List (String × Nat)} {lines : List (List Char)} (hstart : start.toList <+: first)
      (h : Lists items lines) : Lists ((start, more.length) :: items) (first :: (more ++ lines))

/-- As many lines as there are items, each of which begins as its item does. -/
def LineEach (starts : List String) (lines : List (List Char)) : Prop :=
  List.Forall₂ (fun start line => start.toList <+: line) starts lines

variable {items : List (String × Nat)} {lines : List (List Char)}

theorem Lists.length_le (h : Lists items lines) : items.length ≤ lines.length := by
  induction h with
  | nil => exact Nat.le_refl 0
  | item more hstart h ih =>
      simp only [List.length_cons, List.length_append]
      omega

/-- Items have a line each if and only if none of them goes on. -/
theorem Lists.lineEach_iff (h : Lists items lines) :
    LineEach (items.map Prod.fst) lines ↔ ∀ item ∈ items, item.2 = 0 := by
  induction h with
  | nil => exact iff_of_true .nil (List.forall_mem_nil _)
  | item more hstart h ih =>
      rw [List.forall_mem_cons, ← ih]
      constructor
      · intro heach
        have hlength := heach.length_eq
        have hle := h.length_le
        simp only [List.map_cons, List.length_cons, List.length_append, List.length_map] at hlength
        obtain rfl : more = [] := List.length_eq_zero_iff.mp (by omega)
        cases heach with
        | cons _ hrest => exact ⟨rfl, hrest⟩
      · rintro ⟨hmore, hrest⟩
        rw [List.length_eq_zero_iff.mp hmore]
        exact .cons hstart hrest

theorem Lists.lineEach_map_iff {ι : Type} {xs : List ι} {start : ι → String} {count : ι → Nat}
    (h : Lists (xs.map fun x => (start x, count x)) lines) :
    LineEach (xs.map start) lines ↔ ∀ x ∈ xs, count x = 0 := by
  have heach := h.lineEach_iff
  rw [List.map_map, List.forall_mem_map] at heach
  exact heach

/-- Texts one below the other list their items, given what each text begins with and how many line
breaks it has. -/
theorem lists_intercalate {ι : Type} {xs : List ι} {start text : ι → String} {count : ι → Nat}
    (hne : xs ≠ []) (hbreak : ∀ x ∈ xs, Text.breaks (start x) = 0)
    (hstart : ∀ x ∈ xs, (start x).toList <+: (text x).toList)
    (hcount : ∀ x ∈ xs, Text.breaks (text x) = count x) :
    Lists (xs.map fun x => (start x, count x)) (Text.lines ("\n".intercalate (xs.map text))) := by
  rw [Text.lines_intercalate (mt List.map_eq_nil_iff.mp hne), List.flatMap_map]
  clear hne
  induction xs with
  | nil => exact .nil
  | cons x xs ih =>
      obtain ⟨hbreakx, hbreakxs⟩ := List.forall_mem_cons.mp hbreak
      obtain ⟨hstartx, hstartxs⟩ := List.forall_mem_cons.mp hstart
      obtain ⟨hcountx, hcountxs⟩ := List.forall_mem_cons.mp hcount
      obtain ⟨first, more, hlines, hfirst⟩ := Text.lines_begins hbreakx hstartx
      have hmore : count x = more.length := by
        have hlength := Text.length_lines (text x)
        rw [hlines, hcountx] at hlength
        exact (Nat.succ.inj hlength).symm
      rw [List.map_cons, List.flatMap_cons, hlines, hmore]
      exact .item more hfirst (ih hbreakxs hstartxs hcountxs)

end Report

end RecordFlow
