/-
# Joins

The four ways to join, and the namespaces under which a side of a join offers its records to the
condition. A name offers itself, an alias hides what is under it, a join offers the namespaces of
both its sides, and a file or a selection without an alias offers none.
-/

import RecordFlow.Script.Basic

namespace RecordFlow

/-- How records without a partner are treated. -/
inductive JoinType
  | inner
  | left
  | right
  | outer
deriving DecidableEq, Repr

namespace JoinType

/-- The join that a token announces. -/
def ofKind? : TokenKind → Option JoinType
  | .keyword .INNER => some inner
  | .keyword .LEFT => some left
  | .keyword .RIGHT => some right
  | .keyword .OUTER => some outer
  | _ => none

/-- The name of the join in generated code. -/
def name : JoinType → String
  | inner => "Inner"
  | left => "Left"
  | right => "Right"
  | outer => "Outer"

end JoinType

namespace Source

/-- The namespaces of a source, from left to right. -/
def namespaces : Source → List Name
  | file _ _ _ => []
  | named name => [name]
  | select _ _ _ _ => []
  | aliased _ _ name => [name]
  | join _ left right _ => left.namespaces ++ right.namespaces

/-- The first namespace of the right source that the left source has too. -/
def sharedNamespace? (left right : Source) : Option Name :=
  right.namespaces.find? fun name => left.namespaces.any (·.text == name.text)

/-- The parameter through which a join condition sees a side. A joined side is taken apart into its
namespaces; a side without any is seen under the fallback. -/
def parameter (source : Source) (fallback : String) : String :=
  match source.namespaces with
  | [] => fallback
  | name :: rest =>
      match source with
      | join _ _ _ _ => "\x7b " ++ ", ".intercalate ((name :: rest).map Name.text) ++ " \x7d"
      | _ => name.text

end Source

end RecordFlow
