/-
# The state of a rendering

Rendering invents names. Every binding of a name in a script gets a variable of its own, numbered
from zero for each name, so a later binding never disturbs what refers to an earlier one. Outputs
are numbered across the script, and so are the functions that join conditions are moved to. The
state is the history that these numbers are counted from.
-/

namespace RecordFlow

/-- A generated name. -/
def numbered (name : String) (n : Nat) : String := name ++ "_" ++ n.repr

/-- What has been rendered so far. -/
structure Context where
  /-- The name of every binding, oldest first. -/
  bound : List String
  /-- The functions that hold the join conditions, in order. -/
  conditions : List String
  /-- The number of outputs. -/
  outputs : Nat
deriving DecidableEq

namespace Context

/-- The state before anything is rendered. -/
def empty : Context := ⟨[], [], 0⟩

/-- The number of bindings of a name. -/
def count (context : Context) (name : String) : Nat := context.bound.count name

/-- Bind a name once more. The variable is numbered by the bindings before it. -/
def bind (context : Context) (name : String) : String × Context :=
  (numbered name (context.count name), { context with bound := context.bound ++ [name] })

/-- The variable of the latest binding of a name. -/
def resolve? (context : Context) (name : String) : Option String :=
  match context.count name with
  | 0 => none
  | n + 1 => some (numbered name n)

/-- The name for the next condition. -/
def nextCondition (context : Context) : String := numbered "condition" context.conditions.length

/-- Keep the function of a condition. -/
def pushCondition (context : Context) (rendered : String) : Context :=
  { context with conditions := context.conditions ++ [rendered] }

/-- The variable for the next output, which is counted. -/
def nextOutput (context : Context) : String × Context :=
  (numbered "output" context.outputs, { context with outputs := context.outputs + 1 })

end Context

end RecordFlow
