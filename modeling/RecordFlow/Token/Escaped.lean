/-
# Text up to an unescaped closer

Strings and embedded expressions run to a closer, and a backslash in front of the closer lets it
through. A backslash that is itself escaped has no such effect. The text between is kept as it is
written: nothing is unescaped here.
-/

namespace RecordFlow.Scan

/-- Cut a text in front of the first `closer` that is not escaped. The flag tells whether the next
character is escaped. The second part is what follows the closer. -/
def upToCloser (closer : List Char) (escaped : Bool) : List Char → Option (List Char × List Char)
  | [] => none
  | c :: rest =>
      if !escaped && closer.isPrefixOf (c :: rest) then
        some ([], (c :: rest).drop closer.length)
      else
        (upToCloser closer (c == '\\' && !escaped) rest).map fun (body, after) =>
          (c :: body, after)

/-- The text, its closer and what follows make up the input. -/
theorem upToCloser_append {closer : List Char} {escaped : Bool} {cs body after : List Char}
    (h : upToCloser closer escaped cs = some (body, after)) :
    body ++ (closer ++ after) = cs := by
  induction cs generalizing escaped body with
  | nil => exact nomatch h
  | cons c rest ih =>
      rw [upToCloser] at h
      split at h
      · next hclose =>
          cases h
          obtain ⟨_, hclose⟩ := Bool.and_eq_true_iff.mp hclose
          obtain ⟨tail, htail⟩ := List.isPrefixOf_iff_prefix.mp hclose
          simp [← htail]
      · obtain ⟨⟨body', after'⟩, hrest, heq⟩ := Option.map_eq_some_iff.mp h
        cases heq
        rw [List.cons_append, ih hrest]

end RecordFlow.Scan
