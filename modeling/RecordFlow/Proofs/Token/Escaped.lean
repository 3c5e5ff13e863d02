/-
# Escaping is a matter of parity

The reader of strings and expressions carries a flag that every backslash may turn. What the flag
says can be read off the text: the next character is escaped exactly if the run of backslashes in
front of it has odd length. So the body of a string or an expression is described without the
reader. It runs up to the first closer that stands behind an even run.
-/

import RecordFlow.Token.Escaped

namespace RecordFlow.Scan

variable {closer cs body after seen : List Char}

/-- The length of the run of backslashes at the end of a text. -/
def backslashes (before : List Char) : Nat := (before.reverse.takeWhile (· == '\\')).length

/-- Whether what stands behind `before` is escaped. -/
def isEscaped (before : List Char) : Bool := backslashes before % 2 == 1

@[simp]
theorem isEscaped_nil : isEscaped [] = false := rfl

/-- One more character turns the flag as the reader does. -/
theorem isEscaped_concat (before : List Char) (c : Char) :
    isEscaped (before ++ [c]) = (c == '\\' && !isEscaped before) := by
  by_cases hc : c = '\\'
  · subst hc
    have hlength : backslashes (before ++ ['\\']) = backslashes before + 1 := by
      simp [backslashes]
    rw [isEscaped, isEscaped, hlength]
    rcases Nat.mod_two_eq_zero_or_one (backslashes before) with heven | hodd
    · simp [Nat.add_mod, heven]
    · simp [Nat.add_mod, hodd]
  · simp [isEscaped, backslashes, hc]

/-- What stands in front of another character does not escape anything behind it. -/
theorem isEscaped_cons {c : Char} (hc : c ≠ '\\') (before : List Char) :
    isEscaped (c :: before) = isEscaped before := by
  have hrun : (before.reverse ++ [c]).takeWhile (· == '\\') =
      before.reverse.takeWhile (· == '\\') := by
    rw [List.takeWhile_append]
    split
    · next hall => simp [hc, (List.takeWhile_prefix _).eq_of_length hall]
    · rfl
  simp [isEscaped, backslashes, hrun]

/-- A text that a closer behind it closes, and no closer before: wherever a closer begins in the
text, possibly to end in the closer behind it, it is escaped. -/
structure Encloses (closer body : List Char) : Prop where
  free : isEscaped body = false
  guarded : ∀ before behind, body = before ++ behind → behind ≠ [] → closer <+: behind ++ closer →
    isEscaped before

/-- The reader that has passed `seen` cuts in front of the first closer that is not escaped. -/
theorem upToCloser_behind_iff (hcloser : closer ≠ []) :
    upToCloser closer (isEscaped seen) cs = some (body, after) ↔
      cs = body ++ (closer ++ after) ∧ isEscaped (seen ++ body) = false ∧
        ∀ before behind, body = before ++ behind → behind ≠ [] →
          closer <+: behind ++ (closer ++ after) → isEscaped (seen ++ before) := by
  induction cs generalizing seen body with
  | nil =>
      constructor
      · exact nofun
      · rintro ⟨hcs, -, -⟩
        simp [hcloser] at hcs
  | cons c rest ih =>
      rw [upToCloser]
      by_cases hclose : (!isEscaped seen && closer.isPrefixOf (c :: rest)) = true
      · rw [if_pos hclose]
        obtain ⟨hfree, hbegins⟩ := Bool.and_eq_true_iff.mp hclose
        have hfree : isEscaped seen = false := by simpa using hfree
        have hbegins := List.isPrefixOf_iff_prefix.mp hbegins
        constructor
        · intro h
          cases h
          refine ⟨?_, by simpa using hfree, fun before behind hbody hbehind _ => ?_⟩
          · obtain ⟨tail, htail⟩ := hbegins
            simp [← htail]
          · exact absurd (List.append_eq_nil_iff.mp hbody.symm).2 hbehind
        · rintro ⟨hcs, -, hguarded⟩
          rw [hcs] at hbegins ⊢
          have hbody : body = [] := by
            refine Decidable.byContradiction fun hne => ?_
            have hescaped := hguarded [] body rfl hne hbegins
            simp [hfree] at hescaped
          simp [hbody]
      · rw [if_neg hclose, ← isEscaped_concat, Option.map_eq_some_iff]
        have hhere : closer <+: c :: rest → isEscaped seen := by
          intro hbegins
          simpa [List.isPrefixOf_iff_prefix.mpr hbegins] using hclose
        constructor
        · rintro ⟨⟨inner, _⟩, hinner, heq⟩
          cases heq
          obtain ⟨hrest, hfree, hguarded⟩ := ih.mp hinner
          refine ⟨by rw [hrest, List.cons_append], by simpa using hfree, ?_⟩
          intro before behind hbody hbehind hbegins
          cases before with
          | nil =>
              rw [List.nil_append] at hbody
              subst hbody
              rw [List.append_nil]
              exact hhere (by rw [hrest]; exact hbegins)
          | cons d before =>
              obtain ⟨rfl, hinside⟩ := List.cons.inj hbody
              simpa using hguarded before behind hinside hbehind hbegins
        · rintro ⟨hcs, hfree, hguarded⟩
          cases body with
          | nil =>
              have hescaped := hhere (by rw [hcs]; exact List.prefix_append _ _)
              simp [hescaped] at hfree
          | cons d inner =>
              obtain ⟨rfl, hrest⟩ := List.cons.inj hcs
              refine ⟨(inner, after), ih.mpr ⟨hrest, by simpa using hfree, ?_⟩, rfl⟩
              intro before behind hbody hbehind hbegins
              simpa using hguarded (c :: before) behind (by rw [hbody, List.cons_append]) hbehind
                hbegins

/-- The reader that has passed `seen` finds nothing exactly if every closer is escaped. -/
theorem upToCloser_behind_eq_none_iff (hcloser : closer ≠ []) :
    upToCloser closer (isEscaped seen) cs = none ↔
      ∀ before after, cs = before ++ (closer ++ after) → isEscaped (seen ++ before) := by
  induction cs generalizing seen with
  | nil =>
      refine ⟨fun _ before after hcs => ?_, fun _ => rfl⟩
      simp [hcloser] at hcs
  | cons c rest ih =>
      rw [upToCloser]
      by_cases hclose : (!isEscaped seen && closer.isPrefixOf (c :: rest)) = true
      · rw [if_pos hclose]
        obtain ⟨hfree, hbegins⟩ := Bool.and_eq_true_iff.mp hclose
        obtain ⟨after, hafter⟩ := List.isPrefixOf_iff_prefix.mp hbegins
        refine ⟨fun hnone => absurd hnone (Option.some_ne_none _), fun h => ?_⟩
        have hescaped := h [] after hafter.symm
        rw [List.append_nil] at hescaped
        simp [hescaped] at hfree
      · rw [if_neg hclose, ← isEscaped_concat, Option.map_eq_none_iff, ih]
        constructor
        · intro h before after hcs
          cases before with
          | nil =>
              rw [List.nil_append] at hcs
              rw [List.append_nil]
              have hbegins := List.isPrefixOf_iff_prefix.mpr ⟨after, hcs.symm⟩
              simpa [hbegins] using hclose
          | cons d before =>
              obtain ⟨rfl, hrest⟩ := List.cons.inj hcs
              simpa using h before after hrest
        · intro h before after hrest
          simpa using h (c :: before) after (by rw [hrest, List.cons_append])

/-- The reader finds a body exactly where a closer encloses it. -/
theorem upToCloser_eq_some_iff (hcloser : closer ≠ []) :
    upToCloser closer false cs = some (body, after) ↔
      cs = body ++ (closer ++ after) ∧ Encloses closer body := by
  have hrun : upToCloser closer (isEscaped []) cs = some (body, after) ↔ _ :=
    upToCloser_behind_iff hcloser
  rw [isEscaped_nil] at hrun
  rw [hrun]
  -- What stands behind the closer is too far away to take part in one that begins in the body.
  have hreach : ∀ behind : List Char,
      closer <+: behind ++ (closer ++ after) ↔ closer <+: behind ++ closer := by
    intro behind
    rw [← List.append_assoc]
    constructor
    · intro h
      exact List.prefix_of_prefix_length_le h (List.prefix_append _ after) (by simp)
    · intro h
      exact h.trans (List.prefix_append _ after)
  simp only [hreach, List.nil_append]
  exact and_congr_right fun _ => ⟨fun h => ⟨h.1, h.2⟩, fun h => ⟨h.free, h.guarded⟩⟩

/-- A text that no closer closes: every one in it is escaped. -/
def Unclosed (closer cs : List Char) : Prop :=
  ∀ before after, cs = before ++ (closer ++ after) → isEscaped before

theorem upToCloser_eq_none_iff (hcloser : closer ≠ []) :
    upToCloser closer false cs = none ↔ Unclosed closer cs := by
  have hrun : upToCloser closer (isEscaped []) cs = none ↔ _ :=
    upToCloser_behind_eq_none_iff hcloser
  simpa [Unclosed] using hrun

end RecordFlow.Scan
