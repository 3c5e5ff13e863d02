/-
# What stops a rendering

A script that can be read may still refer to a name before it is bound, or give both sides of a join
one namespace. Snippets may be missing or refuse a value. Rendering stops at the first of these, and
there is no partial text.
-/

import RecordFlow.Snippet.Library
import RecordFlow.Token.Basic

namespace RecordFlow

/-- Why a rendering stopped. -/
inductive RenderFault
  /-- A snippet could not be filled. -/
  | snippet (cause : SnippetError)
  /-- A join stands at a token that announces no join. -/
  | unknownJoinType (kind : TokenKind)
  /-- A name has no binding before its use. -/
  | unresolved (name : String)
  /-- Both sides of a join have a namespace of this name. -/
  | duplicateJoinName (name : String)
deriving DecidableEq

namespace RenderFault

/-- The wording of a fault without its place. -/
def message : RenderFault → String
  | snippet cause => cause.message
  | unknownJoinType kind => "unknown join type " ++ kind.description
  | unresolved name => "'" ++ name ++ "' is used before it is assigned"
  | duplicateJoinName name => "'" ++ name ++ "' names both sides of a join"

end RenderFault

/-- A fault and its place. -/
structure RenderError where
  fault : RenderFault
  position : Position
deriving DecidableEq

namespace RenderError

/-- The wording of an error with its place, which stands in parentheses behind what a snippet
reports. -/
def message (e : RenderError) : String :=
  match e.fault with
  | .snippet cause => cause.message ++ " (" ++ e.position.phrase ++ ")"
  | fault => fault.message ++ " at " ++ e.position.phrase

end RenderError

end RecordFlow
