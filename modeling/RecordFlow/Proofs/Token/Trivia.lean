/-
# Trivia without a scanner

What may stand between lexemes, described by itself: separators, line comments with their line
break, and block comments that end at the first `*/`. A run of such pieces is complete, that is, it
does not matter what follows it. Only at the end of a text may a last line comment go without its
line break. Skipping trivia takes exactly the longest such run, and a run put in front of a text is
skipped before anything else is.
-/

import RecordFlow.Proofs.Token.Boundary

namespace RecordFlow.Scan

/-- One complete piece of trivia. -/
inductive Trivium : List Char → Prop
  | separator {c : Char} (h : isSeparator c) : Trivium [c]
  | lineComment {body : List Char} (h : '\n' ∉ body) : Trivium ('/' :: '/' :: (body ++ ['\n']))
  | blockComment {body : List Char} (h : ¬['*', '/'] <:+: body) :
      Trivium ('/' :: '*' :: (body ++ ['*', '/']))

/-- A run of complete pieces of trivia. -/
inductive Trivia : List Char → Prop
  | nil : Trivia []
  | cons {piece rest : List Char} (hpiece : Trivium piece) (hrest : Trivia rest) :
      Trivia (piece ++ rest)

/-- Trivia at the end of a text, where the last line comment may lack its line break. -/
inductive TrailingTrivia : List Char → Prop
  | complete {cs : List Char} (h : Trivia cs) : TrailingTrivia cs
  | openComment {cs body : List Char} (h : Trivia cs) (hbody : '\n' ∉ body) :
      TrailingTrivia (cs ++ '/' :: '/' :: body)

variable {cs rest body after : List Char} {c : Char}

theorem Trivium.trivia (h : Trivium cs) : Trivia cs := by
  have hcons := Trivia.cons h .nil
  rwa [List.append_nil] at hcons

theorem Trivia.append {xs ys : List Char} (hxs : Trivia xs) (hys : Trivia ys) :
    Trivia (xs ++ ys) := by
  induction hxs with
  | nil => exact hys
  | cons hpiece _ ih =>
      rw [List.append_assoc]
      exact .cons hpiece ih

theorem Trivia.append_trailing {xs ys : List Char} (hxs : Trivia xs) (hys : TrailingTrivia ys) :
    TrailingTrivia (xs ++ ys) := by
  cases hys with
  | complete hys => exact .complete (hxs.append hys)
  | openComment hys hbody =>
      rw [← List.append_assoc]
      exact .openComment (hxs.append hys) hbody

/-- A character that begins a piece of trivia. No lexeme goes on with one, and none begins with
one. -/
def opensTrivia (c : Char) : Bool := isSeparator c || c == '/'

theorem opensTrivia_iff : opensTrivia c ↔ c ∈ [' ', '\t', '\r', '\n', '/'] := by
  simp [opensTrivia, isSeparator, or_assoc]

theorem Trivium.head (h : Trivium cs) : ∃ c tail, cs = c :: tail ∧ opensTrivia c := by
  cases h with
  | separator hc => exact ⟨_, _, rfl, by simp [opensTrivia, hc]⟩
  | lineComment _ => exact ⟨_, _, rfl, rfl⟩
  | blockComment _ => exact ⟨_, _, rfl, rfl⟩

theorem Trivia.head (h : Trivia cs) (hne : cs ≠ []) : ∃ c tail, cs = c :: tail ∧ opensTrivia c := by
  cases h with
  | nil => exact absurd rfl hne
  | cons hpiece _ =>
      obtain ⟨c, tail, rfl, hc⟩ := hpiece.head
      exact ⟨c, _, rfl, hc⟩

/-- A run of characters with a property ends where the first one without it stands. -/
theorem span_exact {p : Char → Bool} (hbody : ∀ c ∈ body, p c)
    (hrest : ∀ c ∈ rest.head?, p c = false) :
    (body ++ rest).takeWhile p = body ∧ (body ++ rest).dropWhile p = rest := by
  rw [List.takeWhile_append_of_pos hbody, List.dropWhile_append_of_pos hbody]
  cases rest with
  | nil => simp
  | cons c rest => simp [hrest c rfl]

/-- Every text begins with such a run. -/
theorem span_holds (p : Char → Bool) (cs : List Char) :
    (∀ c ∈ cs.takeWhile p, p c) ∧ ∀ c ∈ (cs.dropWhile p).head?, p c = false := by
  refine ⟨List.all_eq_true.mp List.all_takeWhile, fun c hc => ?_⟩
  have hhead := List.head?_dropWhile_not p cs
  rw [Option.mem_def.mp hc] at hhead
  exact hhead

theorem trivium?_lineComment (hbody : '\n' ∉ body) (hrest : ∀ c ∈ rest.head?, c = '\n') :
    trivium? ('/' :: '/' :: (body ++ rest)) = some ('/' :: '/' :: body, rest) := by
  have hinside : ∀ c ∈ body, (c != '\n') = true := fun c hc =>
    bne_iff_ne.mpr fun heq => hbody (heq ▸ hc)
  have hend : ∀ c ∈ rest.head?, (c != '\n') = false := fun c hc => by simp [hrest c hc]
  obtain ⟨htake, hdrop⟩ := span_exact hinside hend
  simp [trivium?, htake, hdrop]

theorem commentEnd_infix_cons_iff {d : Char} :
    ['*', '/'] <:+: d :: cs ↔ d = '*' ∧ cs.head? = some '/' ∨ ['*', '/'] <:+: cs := by
  rw [List.infix_cons_iff]
  refine or_congr_left ?_
  cases cs with
  | nil => simp
  | cons e cs => simp [eq_comm]

/-- A comment that does not end inside is read up to the mark behind it. -/
theorem throughCommentEnd_of_not_infix (h : ¬['*', '/'] <:+: body) (rest : List Char) :
    throughCommentEnd (body ++ '*' :: '/' :: rest) = some (body ++ ['*', '/'], rest) := by
  induction body with
  | nil => rfl
  | cons d body ih =>
      rw [commentEnd_infix_cons_iff, not_or] at h
      have hopen : ∀ tail, d = '*' → body ++ '*' :: '/' :: rest = '/' :: tail → False := by
        intro tail hd htail
        refine h.1 ⟨hd, ?_⟩
        cases body with
        | nil => exact absurd (List.cons.inj htail).1 (by decide)
        | cons e body => rw [(List.cons.inj htail).1, List.head?_cons]
      rw [List.cons_append, throughCommentEnd.eq_3 _ _ hopen, ih h.2]
      rfl

/-- What is read as a comment ends at its first mark. -/
theorem not_infix_of_throughCommentEnd {piece : List Char}
    (h : throughCommentEnd cs = some (piece, after)) :
    ∃ body, piece = body ++ ['*', '/'] ∧ ¬['*', '/'] <:+: body := by
  fun_induction throughCommentEnd cs generalizing piece after with
  | case1 => cases h
  | case2 rest =>
      cases h
      exact ⟨[], rfl, by simp⟩
  | case3 d rest hopen ih =>
      obtain ⟨⟨inner, _⟩, hinner, heq⟩ := Option.map_eq_some_iff.mp h
      cases heq
      obtain ⟨body, rfl, hbody⟩ := ih hinner
      refine ⟨d :: body, rfl, ?_⟩
      rw [commentEnd_infix_cons_iff]
      rintro (⟨hd, hhead⟩ | hinside)
      · obtain ⟨tail, rfl⟩ := List.head?_eq_some_iff.mp hhead
        refine hopen (tail ++ ['*', '/'] ++ after) hd ?_
        rw [← throughCommentEnd_append hinner]
        simp
      · exact hbody hinside

/-- A text in which no comment ends has no mark that ends one. -/
theorem not_infix_of_throughCommentEnd_none (h : throughCommentEnd cs = none) :
    ¬['*', '/'] <:+: cs := by
  fun_induction throughCommentEnd cs with
  | case1 => simp
  | case2 rest => cases h
  | case3 d rest hopen ih =>
      rw [commentEnd_infix_cons_iff]
      rintro (⟨hd, hhead⟩ | hinside)
      · obtain ⟨tail, rfl⟩ := List.head?_eq_some_iff.mp hhead
        exact hopen tail hd rfl
      · exact ih (Option.map_eq_none_iff.mp h) hinside

/-- Skipping stops where no trivia begins. -/
theorem trivium?_of_skipTrivia (cs : List Char) : trivium? (skipTrivia cs).2 = none := by
  fun_induction skipTrivia cs with
  | case1 cs hnone => exact hnone
  | case2 cs piece rest _ _ more ih => exact ih

/-- A complete piece is skipped whatever follows it. -/
theorem Trivium.skip {piece : List Char} (h : Trivium piece) (rest : List Char) :
    skipTrivia (piece ++ rest) = (piece ++ (skipTrivia rest).1, (skipTrivia rest).2) := by
  have hseparator : ∀ {c : Char}, isSeparator c →
      skipTrivia (c :: rest) = (c :: (skipTrivia rest).1, (skipTrivia rest).2) := by
    intro c hc
    have hslash : c ≠ '/' := by
      rintro rfl
      exact nomatch hc
    rw [skipTrivia_of_some (by rw [trivium?_cons hslash, if_pos hc])]
    rfl
  cases h with
  | separator hc => exact hseparator hc
  | @lineComment body hbody =>
      have hcomment : trivium? ('/' :: '/' :: (body ++ '\n' :: rest)) =
          some ('/' :: '/' :: body, '\n' :: rest) := trivium?_lineComment hbody (by simp)
      have hbreak := hseparator (c := '\n') rfl
      simp [skipTrivia_of_some hcomment, hbreak]
  | @blockComment body hbody =>
      have hcomment : trivium? ('/' :: '*' :: (body ++ '*' :: '/' :: rest)) =
          some ('/' :: '*' :: (body ++ ['*', '/']), rest) := by
        simp [trivium?, throughCommentEnd_of_not_infix hbody]
      simp [skipTrivia_of_some hcomment]

/-- Complete trivia is skipped whatever follows it. -/
theorem Trivia.skip {gap : List Char} (h : Trivia gap) (rest : List Char) :
    skipTrivia (gap ++ rest) = (gap ++ (skipTrivia rest).1, (skipTrivia rest).2) := by
  induction h with
  | nil => rfl
  | cons hpiece _ ih => rw [List.append_assoc, hpiece.skip, ih, List.append_assoc]

/-- Where no trivia begins, nothing is skipped. -/
theorem skipTrivia_of_not_opensTrivia (h : opensTrivia c = false) (rest : List Char) :
    skipTrivia (c :: rest) = ([], c :: rest) := by
  obtain ⟨hseparator, hslash⟩ : isSeparator c = false ∧ c ≠ '/' := by
    simpa [opensTrivia] using h
  exact skipTrivia_of_none (by rw [trivium?_cons hslash, hseparator]; rfl)

theorem TrailingTrivia.skip (h : TrailingTrivia cs) : skipTrivia cs = (cs, []) := by
  have hnil : skipTrivia [] = ([], []) := skipTrivia_of_none rfl
  cases h with
  | complete h =>
      have hskip := h.skip []
      rwa [hnil, List.append_nil] at hskip
  | @openComment gap body h hbody =>
      have hcomment : trivium? ('/' :: '/' :: (body ++ [])) = some ('/' :: '/' :: body, []) :=
        trivium?_lineComment hbody nofun
      rw [List.append_nil] at hcomment
      rw [h.skip, skipTrivia_of_some hcomment, hnil, List.append_nil]

/-- A text that begins with trivia begins with a complete piece, or is one line comment. -/
theorem trivium_of_trivium? {piece : List Char} (h : trivium? cs = some (piece, rest)) :
    (∃ whole behind, Trivium whole ∧ cs = whole ++ behind) ∨
      ∃ body, '\n' ∉ body ∧ cs = '/' :: '/' :: body := by
  unfold trivium? at h
  split at h
  · next cs =>
      have hcs := List.takeWhile_append_dropWhile (p := (· != '\n')) (l := cs)
      obtain ⟨hbody, hbehind⟩ := span_holds (· != '\n') cs
      generalize cs.takeWhile (· != '\n') = body at hcs hbody
      generalize cs.dropWhile (· != '\n') = behind at hcs hbehind
      subst hcs
      have hline : '\n' ∉ body := fun hmem => absurd (hbody _ hmem) (by decide)
      cases behind with
      | nil => exact .inr ⟨body, hline, by rw [List.append_nil]⟩
      | cons c behind =>
          have hc : c = '\n' := by simpa using hbehind c rfl
          exact .inl ⟨_, behind, .lineComment hline, by simp [hc]⟩
  · next cs =>
      obtain ⟨⟨inner, behind⟩, hinner, -⟩ := Option.map_eq_some_iff.mp h
      obtain ⟨body, rfl, hbody⟩ := not_infix_of_throughCommentEnd hinner
      exact .inl ⟨_, behind, .blockComment hbody, by simp [← throughCommentEnd_append hinner]⟩
  · next c cs _ _ =>
      split at h
      · next hc => exact .inl ⟨[c], cs, .separator hc, rfl⟩
      · exact nomatch h
  · exact nomatch h

/-- What is skipped is complete trivia, or the text ends with it. -/
theorem trivia_of_skipTrivia (cs : List Char) :
    Trivia (skipTrivia cs).1 ∨ (skipTrivia cs).2 = [] ∧ TrailingTrivia (skipTrivia cs).1 := by
  cases h : trivium? cs with
  | none =>
      rw [skipTrivia_of_none h]
      exact .inl .nil
  | some found =>
      obtain ⟨whole, behind, hwhole, rfl⟩ | ⟨body, hbody, rfl⟩ := trivium_of_trivium? h
      · have hshorter : behind.length < (whole ++ behind).length := by
          obtain ⟨c, tail, rfl, -⟩ := hwhole.head
          simp only [List.length_append, List.length_cons]
          omega
        rw [hwhole.skip]
        obtain hbehind | ⟨hend, hbehind⟩ := trivia_of_skipTrivia behind
        · exact .inl (.cons hwhole hbehind)
        · exact .inr ⟨hend, hwhole.trivia.append_trailing hbehind⟩
      · have htrailing : TrailingTrivia ('/' :: '/' :: body) := .openComment .nil hbody
        rw [htrailing.skip]
        exact .inr ⟨rfl, htrailing⟩
termination_by cs.length

end RecordFlow.Scan
