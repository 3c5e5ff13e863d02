/-
# Templates and their placeholders

A template is plain text with placeholders in two forms, `/*%key%*/` and `__key__`. The first form
keeps a template readable as code before it is filled; the second fits where a name has to stand.
A key is a letter and then letters and digits, each with at most one underscore in front, so two
underscores always end a key and the two forms have the same keys.

A template is cut from the left: where a placeholder begins it is taken whole, and every other
character stands for itself.
-/

namespace RecordFlow.Template

/-- The two ways to write a placeholder. -/
inductive Form
  | comment
  | underscores
deriving DecidableEq, Repr

namespace Form

/-- What stands before the key. -/
def opening : Form → List Char
  | comment => ['/', '*', '%']
  | underscores => ['_', '_']

/-- What stands after the key. -/
def closing : Form → List Char
  | comment => ['%', '*', '/']
  | underscores => ['_', '_']

end Form

/-- A piece of a template. -/
inductive Piece
  /-- A character that stands for itself. -/
  | literal (c : Char)
  /-- A place to fill. -/
  | placeholder (form : Form) (key : List Char)
deriving DecidableEq, Repr

namespace Piece

/-- How the piece is written in a template. -/
def source : Piece → List Char
  | literal c => [c]
  | placeholder form key => form.opening ++ (key ++ form.closing)

/-- The key of a placeholder. -/
def key? : Piece → Option String
  | literal _ => none
  | placeholder _ key => some (String.ofList key)

end Piece

/-- The longest continuation of a key, and what follows it. -/
def keyTail : List Char → List Char × List Char
  | '_' :: c :: rest =>
      if c.isAlphanum then
        let more := keyTail rest
        ('_' :: c :: more.1, more.2)
      else ([], '_' :: c :: rest)
  | c :: rest =>
      if c.isAlphanum then
        let more := keyTail rest
        (c :: more.1, more.2)
      else ([], c :: rest)
  | [] => ([], [])

/-- The longest key at the beginning of a text, and what follows it. -/
def splitKey? : List Char → Option (List Char × List Char)
  | c :: rest =>
      if c.isAlpha then
        let more := keyTail rest
        some (c :: more.1, more.2)
      else none
  | [] => none

/-- The text behind `expected`, when the text begins with it. -/
def behind? (expected cs : List Char) : Option (List Char) :=
  if expected.isPrefixOf cs then some (cs.drop expected.length) else none

/-- A placeholder of the given form at the beginning of a text, and what follows it. A key is never
cut short to make room for what closes it. -/
def placeholderOf? (form : Form) (cs : List Char) : Option (Piece × List Char) := do
  let inner ← behind? form.opening cs
  let (key, rest) ← splitKey? inner
  let rest ← behind? form.closing rest
  return (.placeholder form key, rest)

/-- A placeholder at the beginning of a text, and what follows it. -/
def placeholder? (cs : List Char) : Option (Piece × List Char) :=
  match placeholderOf? .comment cs with
  | some found => some found
  | none => placeholderOf? .underscores cs

theorem keyTail_append (cs : List Char) : (keyTail cs).1 ++ (keyTail cs).2 = cs := by
  fun_induction keyTail cs with
  | case1 c rest _ more ih => simpa [more] using ih
  | case2 => rfl
  | case3 c rest _ _ more ih => simpa [more] using ih
  | case4 => rfl
  | case5 => rfl

theorem splitKey?_append {cs key rest : List Char} (h : splitKey? cs = some (key, rest)) :
    key ++ rest = cs := by
  cases cs with
  | nil => exact nomatch h
  | cons c tail =>
      rw [splitKey?] at h
      split at h
      · cases h
        rw [List.cons_append, keyTail_append]
      · exact nomatch h

theorem behind?_append {expected cs rest : List Char} (h : behind? expected cs = some rest) :
    expected ++ rest = cs := by
  unfold behind? at h
  split at h
  · next hbegins =>
      cases h
      obtain ⟨tail, htail⟩ := List.isPrefixOf_iff_prefix.mp hbegins
      rw [← htail, List.drop_left]
  · exact nomatch h

/-- A placeholder and what follows it make up the text. -/
theorem placeholderOf?_append {form : Form} {cs rest : List Char} {piece : Piece}
    (h : placeholderOf? form cs = some (piece, rest)) : piece.source ++ rest = cs := by
  unfold placeholderOf? at h
  obtain ⟨inner, hinner, h⟩ := Option.bind_eq_some_iff.mp h
  obtain ⟨⟨key, behindKey⟩, hkey, h⟩ := Option.bind_eq_some_iff.mp h
  obtain ⟨behindAll, hclose, h⟩ := Option.bind_eq_some_iff.mp h
  cases h
  rw [← behind?_append hinner, ← splitKey?_append hkey, ← behind?_append hclose]
  simp [Piece.source]

theorem placeholder?_append {cs rest : List Char} {piece : Piece}
    (h : placeholder? cs = some (piece, rest)) : piece.source ++ rest = cs := by
  unfold placeholder? at h
  split at h
  · next found hcomment =>
      cases h
      exact placeholderOf?_append hcomment
  · exact placeholderOf?_append h

/-- No piece is written with nothing. -/
theorem Piece.source_ne_nil (piece : Piece) : piece.source ≠ [] := by
  cases piece with
  | literal c => simp [source]
  | placeholder form key => cases form <;> simp [source, Form.opening]

/-- What follows a placeholder is shorter than the text. -/
theorem placeholder?_length_lt {cs rest : List Char} {piece : Piece}
    (h : placeholder? cs = some (piece, rest)) : rest.length < cs.length := by
  have hpos := List.length_pos_iff.mpr piece.source_ne_nil
  rw [← placeholder?_append h, List.length_append]
  omega

/-- Cut a template into its pieces. -/
def cut : List Char → List Piece
  | [] => []
  | c :: rest =>
      match h : placeholder? (c :: rest) with
      | some (piece, behind) =>
          have : behind.length ≤ rest.length := Nat.le_of_lt_succ (placeholder?_length_lt h)
          piece :: cut behind
      | none => .literal c :: cut rest
termination_by cs => cs.length

/-- The keys of a template, in the order of their first placeholders. -/
def keys (template : String) : List String :=
  ((cut template.toList).filterMap Piece.key?).eraseDups

/-- A piece filled with the first value given for its key. A placeholder without a value stays. -/
def Piece.fill (values : List (String × String)) (piece : Piece) : List Char :=
  match piece with
  | literal c => [c]
  | placeholder _ key =>
      match List.lookup (String.ofList key) values with
      | some value => value.toList
      | none => piece.source

/-- A template filled in one pass. Values are put in as they are and are not looked into. -/
def fill (template : String) (values : List (String × String)) : String :=
  String.ofList ((cut template.toList).flatMap (Piece.fill values))

end RecordFlow.Template
