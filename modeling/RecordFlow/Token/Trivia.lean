/-
# What stands between tokens

Separators, line comments and closed block comments carry no meaning. Trivia is skipped piece by
piece, and every piece gives back the characters it took, so the skipped text and the rest always
put the input together again. A block comment that is never closed is no trivia: skipping stops in
front of it and leaves the complaint to whoever reads what comes next.
-/

namespace RecordFlow.Scan

/-- The characters that separate tokens. -/
def isSeparator (c : Char) : Bool := c == ' ' || c == '\t' || c == '\r' || c == '\n'

/-- Cut a text just after its first `*/`. -/
def throughCommentEnd : List Char → Option (List Char × List Char)
  | [] => none
  | '*' :: '/' :: rest => some (['*', '/'], rest)
  | c :: rest => (throughCommentEnd rest).map fun (body, after) => (c :: body, after)

/-- One separator or one comment at the beginning of a text, and what follows it. A line comment
ends before the line break, which is a separator of its own. -/
def trivium? : List Char → Option (List Char × List Char)
  | '/' :: '/' :: rest =>
      some ('/' :: '/' :: rest.takeWhile (· != '\n'), rest.dropWhile (· != '\n'))
  | '/' :: '*' :: rest =>
      (throughCommentEnd rest).map fun (body, after) => ('/' :: '*' :: body, after)
  | c :: rest => if isSeparator c then some ([c], rest) else none
  | [] => none

/-- Cutting after a comment's end loses nothing. -/
theorem throughCommentEnd_append {cs body after : List Char}
    (h : throughCommentEnd cs = some (body, after)) : body ++ after = cs := by
  fun_induction throughCommentEnd cs generalizing body after with
  | case1 => simp at h
  | case2 rest =>
      cases h
      rfl
  | case3 c rest _ ih =>
      obtain ⟨⟨body', after'⟩, hrest, heq⟩ := Option.map_eq_some_iff.mp h
      cases heq
      rw [List.cons_append, ih hrest]

/-- A piece of trivia and what follows it make up the text. -/
theorem trivium?_append {cs piece rest : List Char} (h : trivium? cs = some (piece, rest)) :
    piece ++ rest = cs := by
  unfold trivium? at h
  split at h
  · cases h
    simp
  · obtain ⟨⟨body, after⟩, hbody, heq⟩ := Option.map_eq_some_iff.mp h
    cases heq
    simp [throughCommentEnd_append hbody]
  · split at h
    · cases h
      rfl
    · exact nomatch h
  · exact nomatch h

/-- A piece of trivia has at least one character. -/
theorem trivium?_ne_nil {cs piece rest : List Char} (h : trivium? cs = some (piece, rest)) :
    piece ≠ [] := by
  unfold trivium? at h
  split at h
  · cases h
    simp
  · obtain ⟨⟨body, after⟩, _, heq⟩ := Option.map_eq_some_iff.mp h
    cases heq
    simp
  · split at h
    · cases h
      simp
    · exact nomatch h
  · exact nomatch h

/-- What follows a piece of trivia is shorter than the text. -/
theorem trivium?_length_lt {cs piece rest : List Char} (h : trivium? cs = some (piece, rest)) :
    rest.length < cs.length := by
  have happend := trivium?_append h
  have hpos := List.length_pos_iff.mpr (trivium?_ne_nil h)
  rw [← happend, List.length_append]
  omega

/-- All trivia at the beginning of a text, and what follows it. -/
def skipTrivia (cs : List Char) : List Char × List Char :=
  match h : trivium? cs with
  | none => ([], cs)
  | some (piece, rest) =>
      have := trivium?_length_lt h
      let more := skipTrivia rest
      (piece ++ more.1, more.2)
termination_by cs.length

/-- Skipping loses nothing. -/
theorem skipTrivia_append (cs : List Char) : (skipTrivia cs).1 ++ (skipTrivia cs).2 = cs := by
  fun_induction skipTrivia cs with
  | case1 cs _ => rfl
  | case2 cs piece rest h _ more ih =>
      rw [List.append_assoc, ih]
      exact trivium?_append h

/-- What follows the trivia is not longer than the text. -/
theorem skipTrivia_length_le (cs : List Char) : (skipTrivia cs).2.length ≤ cs.length := by
  have h := congrArg List.length (skipTrivia_append cs)
  rw [List.length_append] at h
  omega

end RecordFlow.Scan
