/-
# Reading sources

    Source       = EXTRACT Fields FROM String
                 | SELECT Fields FROM SelectSource [WHERE Expression]
                 | Name
                 | '(' SelectSource ')'
    SelectSource = Aliasable ((INNER | LEFT | RIGHT | OUTER) JOIN Aliasable ON Expression)*
    Aliasable    = Source [AS Name]

Sources nest. Each production takes the production for what is nested in it as an argument, and
only one of them ties the knot, by recursion on a bound for the depth. A nested source begins behind
at least one token of the source around it, so the number of tokens is such a bound. Joins group to
the left: what was read so far becomes the left side of the next join.
-/

import RecordFlow.Script.Production.Field

namespace RecordFlow

open Production

namespace Filter

/-- Read a condition on records, if there is one. -/
def production? : Production (Option Filter) := do
  match ← accept? (.keyword .WHERE) with
  | some token =>
      let condition ← Expression.production .filterCondition
      return some ⟨token, condition⟩
  | none => return none

end Filter

namespace Source

/-- Read a file source, after its first word. -/
def afterExtract (token : Token) : Production Source := do
  let fields ← Fields.production
  let _ ← word .FROM .sourceFrom
  let path ← TextLiteral.production .filePath
  return .file token fields path

/-- Read a selection, after its first word. -/
def afterSelect (nested : Production Source) (token : Token) : Production Source := do
  let fields ← Fields.production
  let _ ← word .FROM .sourceFrom
  let source ← nested
  let filter? ← Filter.production?
  return .select token fields source filter?

/-- Read a source in parentheses, after the first of them. -/
def afterParen (nested : Production Source) : Production Source := do
  let source ← nested
  let _ ← mark .rightParen .rightParen
  return source

/-- How a source goes on after its first token. -/
def after? (nested : Production Source) (t : Token) : Option (Production Source) :=
  match t.kind with
  | .keyword .EXTRACT => some (afterExtract t)
  | .keyword .SELECT => some (afterSelect nested t)
  | .identifier => some (pure (.named (.ofToken t)))
  | .punctuation .leftParen => some (afterParen nested)
  | _ => none

/-- Read a source in which `nested` reads the sources inside. -/
def plain (nested : Production Source) : Production Source := choose .source (after? nested)

/-- Read a source with its alias, if it has one. -/
def aliasable (nested : Production Source) : Production Source := do
  let source ← plain nested
  match ← accept? (.keyword .AS) with
  | some token =>
      let name ← Name.production .sourceAlias
      return .aliased token source name
  | none => return source

/-- Read a word that announces a join, if it comes next. -/
def joinOperator? : Production (Option Token)
  | t :: rest => if t.kind.isJoinOperator then .ok (some t) rest else .ok none (t :: rest)
  | [] => .ok none []

/-- Read the joins that follow the source `left`, in at most `rounds` rounds. -/
def joins (side : Production Source) : (rounds : Nat) → (left : Source) → Production Source
  | 0, left => return left
  | rounds + 1, left => do
      match ← joinOperator? with
      | some token =>
          let _ ← word .JOIN .joinWord
          let right ← side
          let _ ← word .ON .joinOn
          let condition ← Expression.production .joinCondition
          joins side rounds (.join token left right condition)
      | none => return left

/-- Read a source and its joins, with `nested` for the sources inside. -/
def joined (nested : Production Source) : Production Source := do
  let first ← aliasable nested
  bounded fun rounds => joins (aliasable nested) rounds first

/-- Read a source and its joins, nested at most `depth` deep. -/
def within : (depth : Nat) → Production Source
  | 0 => fail .source
  | depth + 1 => joined (within depth)

/-- Read a source. -/
def production : Production Source := bounded fun depth => plain (within depth)

end Source

/-! ## Productions go forward -/

namespace Production

theorem forward_filter : Forward Filter.production? := by
  apply forward_bind (forward_accept? _)
  intro found
  cases found with
  | none => exact forward_pure _
  | some _ => exact forward_bind (forward_expression _) fun _ => forward_pure _

theorem forward_afterExtract (token : Token) : Forward (Source.afterExtract token) :=
  forward_bind forward_fields fun _ => forward_bind (forward_take _ _) fun _ =>
    forward_bind (forward_text _) fun _ => forward_pure _

variable {nested : Production Source}

theorem forward_afterSelect (h : Forward nested) (token : Token) :
    Forward (Source.afterSelect nested token) :=
  forward_bind forward_fields fun _ => forward_bind (forward_take _ _) fun _ =>
    forward_bind h fun _ => forward_bind forward_filter fun _ => forward_pure _

theorem forward_afterParen (h : Forward nested) : Forward (Source.afterParen nested) :=
  forward_bind h fun _ => forward_bind (forward_take _ _) fun _ => forward_pure _

theorem forward_plain (h : Forward nested) : Forward (Source.plain nested) := by
  apply forward_choose
  intro t p hafter
  unfold Source.after? at hafter
  split at hafter <;> cases hafter
  · exact forward_afterExtract t
  · exact forward_afterSelect h t
  · exact forward_pure _
  · exact forward_afterParen h

theorem forward_aliasable (h : Forward nested) : Forward (Source.aliasable nested) := by
  apply forward_bind (forward_plain h)
  intro source
  apply forward_bind (forward_accept? _)
  intro found
  cases found with
  | none => exact forward_pure _
  | some _ => exact forward_bind (forward_name _) fun _ => forward_pure _

theorem forward_joinOperator? : Forward Source.joinOperator? := by
  intro ts
  cases ts with
  | nil => exact List.suffix_refl _
  | cons t rest =>
      by_cases h : t.kind.isJoinOperator
      · simp [left, Source.joinOperator?, h]
      · simp [left, Source.joinOperator?, h]

theorem forward_joins {side : Production Source} (h : Forward side) (rounds : Nat)
    (start : Source) : Forward (Source.joins side rounds start) := by
  induction rounds generalizing start with
  | zero => exact forward_pure _
  | succ rounds ih =>
      apply forward_bind forward_joinOperator?
      intro found
      cases found with
      | none => exact forward_pure _
      | some token =>
          exact forward_bind (forward_take _ _) fun _ => forward_bind h fun _ =>
            forward_bind (forward_take _ _) fun _ => forward_bind (forward_expression _) fun _ =>
              ih _

theorem forward_joined (h : Forward nested) : Forward (Source.joined nested) :=
  forward_bind (forward_aliasable h) fun first =>
    forward_bounded fun rounds => forward_joins (forward_aliasable h) rounds first

theorem forward_within (depth : Nat) : Forward (Source.within depth) := by
  induction depth with
  | zero => exact forward_fail _
  | succ depth ih => exact forward_joined ih

theorem forward_source : Forward Source.production :=
  forward_bounded fun depth => forward_plain (forward_within depth)

end Production

end RecordFlow
