/-
# Positions in a text

A position counts lines and columns from one. Columns count characters, not bytes. The position of
a place in a text is a function of the characters before it, so a scanner that knows which
characters it consumed needs no other bookkeeping.
-/

namespace RecordFlow

/-- A place in a text. -/
structure Position where
  /-- One more than the line breaks before the place. -/
  line : Nat
  /-- One more than the characters since the last line break. -/
  column : Nat
deriving DecidableEq, Repr, Inhabited

namespace Position

/-- The beginning of a text. -/
def start : Position := ⟨1, 1⟩

/-- The place just after `c`, when `c` stands at `p`. -/
def next (p : Position) (c : Char) : Position :=
  if c = '\n' then ⟨p.line + 1, 1⟩ else ⟨p.line, p.column + 1⟩

/-- The place just after the characters `cs`, when they stand at `p`. -/
def after (p : Position) (cs : List Char) : Position := cs.foldl next p

/-- The short form `line:column`. -/
def text (p : Position) : String := s!"{p.line}:{p.column}"

/-- The long form that closes an error message. -/
def phrase (p : Position) : String := s!"line {p.line}, column {p.column}"

@[simp]
theorem after_cons (p : Position) (c : Char) (cs : List Char) :
    p.after (c :: cs) = (p.next c).after cs := rfl

theorem after_append (p : Position) (xs ys : List Char) :
    p.after (xs ++ ys) = (p.after xs).after ys := by
  simp [after, List.foldl_append]

end Position

end RecordFlow
