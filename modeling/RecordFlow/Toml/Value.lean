/-
# TOML values and how tables grow

A document builds one table from headers and key-value lines, and the format says which of these may
add to a table that is already there. A header may open a table that so far was only passed through
on the way to another; a dotted key may add to what dotted keys made and to what headers only passed
through; nothing adds to an inline table. A key is never given twice.
-/

namespace RecordFlow.Toml

/-- How a table came to be. -/
inductive Origin
  /-- By a header of its own, or as the document itself. -/
  | header
  /-- On the way to the table of some header. -/
  | passage
  /-- On the way of a dotted key. -/
  | dotted
  /-- In braces. -/
  | inline
deriving DecidableEq, Repr

/-- A value. Numbers and truth values are told apart from texts and tables, and from each other not
at all, because nothing here asks for one. -/
inductive Value
  | text (value : String)
  | scalar
  | dateTime
  | array (items : List Value)
  | table (origin : Origin) (entries : List (String × Value))
  /-- The tables of a repeated header, in order. -/
  | tables (items : List Value)

namespace Value

/-- Change the value of a key. A key that has none is given `fresh` first, at the end. -/
def alterEntry (key : String) (fresh : Value) (change : Value → Option Value) :
    List (String × Value) → Option (List (String × Value))
  | [] => (change fresh).map fun value => [(key, value)]
  | (k, value) :: rest =>
      if k = key then (change value).map fun value => (k, value) :: rest
      else (alterEntry key fresh change rest).map ((k, value) :: ·)

/-- Change the last of a list of values. -/
def alterLast (change : Value → Option Value) : List Value → Option (List Value)
  | [] => none
  | [value] => (change value).map fun value => [value]
  | value :: rest => (alterLast change rest).map (value :: ·)

/-- Add an entry whose key is not there yet. -/
def insertNew (key : String) (value : Value) (entries : List (String × Value)) :
    Option (List (String × Value)) :=
  if entries.any (·.1 == key) then none else some (entries ++ [(key, value)])

/-- Change the table that the keys of a header lead to. Tables that are missing on the way are made.
Where a header was repeated, the way goes through its latest table. -/
def atHeader : List String → (Value → Option Value) → Value → Option Value
  | [], change, value => change value
  | key :: path, change, .table origin entries =>
      (alterEntry key (.table .passage [])
        (fun
          | .table .inline _ => none
          | .table origin entries => atHeader path change (.table origin entries)
          | .tables items => (alterLast (atHeader path change) items).map .tables
          | _ => none)
        entries).map (.table origin)
  | _ :: _, _, _ => none

/-- Change the table that the front keys of a dotted key lead to. -/
def atDotted : List String → (Value → Option Value) → Value → Option Value
  | [], change, value => change value
  | key :: path, change, .table origin entries =>
      (alterEntry key (.table .dotted [])
        (fun
          | .table .passage entries => atDotted path change (.table .passage entries)
          | .table .dotted entries => atDotted path change (.table .dotted entries)
          | .tables items => (alterLast (atDotted path change) items).map .tables
          | _ => none)
        entries).map (.table origin)
  | _ :: _, _, _ => none

/-- Give a key of a table its value. A dotted key may only end in a table that dotted keys made. -/
def assignLast (plain : Bool) (key : String) (value : Value) : Value → Option Value
  | .table origin entries =>
      if plain = (origin == .dotted) then none
      else (insertNew key value entries).map (.table origin)
  | _ => none

/-- Give a dotted key its value: `front` are its keys but the last. -/
def assign (front : List String) (key : String) (value : Value) : Value → Option Value :=
  atDotted front (assignLast front.isEmpty key value)

/-- Open the table of a header: a new one, or one that was only passed through. -/
def openTable (key : String) : Value → Option Value
  | .table origin entries =>
      (alterEntry key (.table .passage [])
        (fun
          | .table .passage entries => some (.table .header entries)
          | _ => none)
        entries).map (.table origin)
  | _ => none

/-- Open one more table of a repeated header. -/
def openTables (key : String) : Value → Option Value
  | .table origin entries =>
      (alterEntry key (.tables [])
        (fun
          | .tables items => some (.tables (items ++ [.table .header []]))
          | _ => none)
        entries).map (.table origin)
  | _ => none

/-- The value of a key of a table. -/
def get? (key : String) : Value → Option Value
  | .table _ entries => List.lookup key entries
  | _ => none

end Value

end RecordFlow.Toml
