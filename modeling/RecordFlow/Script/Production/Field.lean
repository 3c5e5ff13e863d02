/-
# Reading fields

    Fields = '*' | Field (',' Field)*
    Field  = (Expression | String | Number | Boolean | Name ['.' Name]) [AS Name]
-/

import RecordFlow.Script.Production.Basic

namespace RecordFlow

open Production

namespace FieldValue

/-- Continue an input field after its first name: a dot makes that name a namespace. -/
def afterName (first : Name) : Production FieldValue := do
  match ← accept? (.punctuation .dot) with
  | some _ =>
      let name ← Name.production .fieldNameAfterDot
      return .input (some first) name
  | none => return .input none first

/-- How a field goes on after its first token. -/
def after? (t : Token) : Option (Production FieldValue) :=
  match t.kind with
  | .expression => some (pure (.expression (.ofToken t)))
  | .string => some (pure (.text (.ofToken t)))
  | .integer | .decimal => some (pure (.number (.ofToken t)))
  | .boolean => some (pure (.truth (.ofToken t)))
  | .identifier => some (afterName (.ofToken t))
  | _ => none

/-- Read the value of a field. -/
def production : Production FieldValue := choose .field after?

end FieldValue

namespace Field

/-- Read a field with its alias, if it has one. -/
def production : Production Field := do
  let value ← FieldValue.production
  match ← accept? (.keyword .AS) with
  | some announcement =>
      let name ← Name.production .fieldAlias
      return ⟨value, some ⟨announcement, name⟩⟩
  | none => return ⟨value, none⟩

end Field

namespace Fields

/-- Read the fields after the first, in at most `rounds` rounds. -/
def more : (rounds : Nat) → Production (List Field)
  | 0 => return []
  | rounds + 1 => do
      match ← accept? (.punctuation .comma) with
      | some _ =>
          let field ← Field.production
          let rest ← more rounds
          return field :: rest
      | none => return []

/-- Read a choice of fields. -/
def production : Production Fields := do
  match ← accept? (.punctuation .star) with
  | some token => return .star token
  | none =>
      let first ← Field.production
      let rest ← bounded more
      return .list first rest

end Fields

/-! ## Productions go forward -/

namespace Production

theorem forward_afterName (first : Name) : Forward (FieldValue.afterName first) := by
  apply forward_bind (forward_accept? _)
  intro found
  cases found with
  | none => exact forward_pure _
  | some _ => exact forward_bind (forward_name _) fun _ => forward_pure _

theorem forward_fieldValue : Forward FieldValue.production := by
  apply forward_choose
  intro t p h
  unfold FieldValue.after? at h
  split at h <;> cases h
  case h_6 => exact forward_afterName _
  all_goals exact forward_pure _

theorem forward_field : Forward Field.production := by
  apply forward_bind forward_fieldValue
  intro value
  apply forward_bind (forward_accept? _)
  intro found
  cases found with
  | none => exact forward_pure _
  | some _ => exact forward_bind (forward_name _) fun _ => forward_pure _

theorem forward_moreFields (rounds : Nat) : Forward (Fields.more rounds) := by
  induction rounds with
  | zero => exact forward_pure _
  | succ rounds ih =>
      apply forward_bind (forward_accept? _)
      intro found
      cases found with
      | none => exact forward_pure _
      | some _ =>
          exact forward_bind forward_field fun _ => forward_bind ih fun _ => forward_pure _

theorem forward_fields : Forward Fields.production := by
  apply forward_bind (forward_accept? _)
  intro found
  cases found with
  | some _ => exact forward_pure _
  | none =>
      apply forward_bind forward_field
      intro first
      exact forward_bind (forward_bounded forward_moreFields) fun _ => forward_pure _

end Production

end RecordFlow
