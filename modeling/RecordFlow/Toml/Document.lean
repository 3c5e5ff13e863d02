/-
# TOML documents

A document is a list of lines: key-value pairs, headers, comments and nothing. It is read into one
table, together with the path of the header that is open.
-/

import RecordFlow.Toml.Scalar

namespace RecordFlow.Toml

open Reader

/-- Skip blanks, line breaks and comments between the items of an array. -/
def between : (rounds : Nat) → Reader Unit
  | 0 => return ()
  | rounds + 1 => do
      gap
      match ← peek? with
      | some '#' =>
          comment?
          lineBreak
          between rounds
      | some '\n' | some '\r' =>
          lineBreak
          between rounds
      | _ => return ()

/-- Take the items of an array and its closing bracket. -/
def items (item : Reader Value) : (rounds : Nat) → Reader (List Value)
  | 0 => failure
  | rounds + 1 => do
      bounded fun n => between (n + 1)
      match ← peek? with
      | some ']' =>
          char ']'
          return []
      | _ =>
          let first ← item
          bounded fun n => between (n + 1)
          match ← peek? with
          | some ',' =>
              char ','
              let rest ← items item rounds
              return first :: rest
          | _ =>
              char ']'
              return [first]

/-- Take a key, the equals sign and a value. -/
def pair (item : Reader Value) : Reader (List String × Value) := do
  let path ← dottedKey
  char '='
  gap
  let value ← item
  return (path, value)

/-- Give a dotted key its value. -/
def assignPath (path : List String) (value : Value) (table : Value) : Option Value :=
  match path.getLast? with
  | some key => Value.assign path.dropLast key value table
  | none => none

/-- Take the pairs of an inline table and its closing brace. -/
def pairs (item : Reader Value) : (rounds : Nat) → (table : Value) → Reader Value
  | 0, _ => failure
  | rounds + 1, table => do
      let (path, value) ← pair item
      let table ← assignPath path value table
      gap
      match ← peek? with
      | some ',' =>
          char ','
          pairs item rounds table
      | _ =>
          char '\x7d'
          return table

/-- Take an inline table, after its opening brace. -/
def inlineTable (item : Reader Value) : Reader Value := do
  gap
  match ← peek? with
  | some '\x7d' =>
      char '\x7d'
      return .table .inline []
  | _ => bounded fun n => pairs item n (.table .inline [])

/-- Take a value in which arrays and tables nest at most `depth` deep. -/
def value : (depth : Nat) → Reader Value
  | _, '"' :: rest => do
      let (text, rest) ← string ('"' :: rest)
      return (.text text, rest)
  | _, '\'' :: rest => do
      let (text, rest) ← string ('\'' :: rest)
      return (.text text, rest)
  | depth + 1, '[' :: rest => do
      let (found, rest) ← bounded (fun n => items (value depth) (n + 1)) rest
      return (.array found, rest)
  | depth + 1, '\x7b' :: rest => inlineTable (value depth) rest
  | _, cs => scalar cs

/-- The state of reading: the table so far and the keys of the open header. -/
structure Document where
  root : Value
  here : List String

namespace Document

/-- The document without any line. -/
def empty : Document := ⟨.table .header [], []⟩

/-- Give a key of the open table its value. -/
def assign (d : Document) (path : List String) (v : Value) : Option Document := do
  let root ← d.root.atHeader d.here (assignPath path v)
  return { d with root := root }

/-- Open the table of a header. -/
def openHeader (d : Document) (path : List String) (repeated : Bool) : Option Document := do
  let key ← path.getLast?
  let change := if repeated then Value.openTables key else Value.openTable key
  let root ← d.root.atHeader path.dropLast change
  return ⟨root, path⟩

end Document

/-- Take a header, after its first bracket. -/
def header (d : Document) : Reader Document := do
  match ← peek? with
  | some '[' =>
      char '['
      let path ← dottedKey
      char ']'
      char ']'
      trailing
      d.openHeader path true
  | _ =>
      let path ← dottedKey
      char ']'
      trailing
      d.openHeader path false

/-- Take a key-value pair that is a line. -/
def keyValueLine (d : Document) : Reader Document := do
  let (path, v) ← pair (value (depthLimit - 1))
  trailing
  d.assign path v

/-- Take the lines of a document. -/
def documentLines : (rounds : Nat) → Document → Reader Document
  | 0, d => return d
  | rounds + 1, d => do
      gap
      match ← peek? with
      | none => return d
      | some '#' =>
          comment?
          lineEnd
          documentLines rounds d
      | some '\n' | some '\r' =>
          lineBreak
          documentLines rounds d
      | some '[' =>
          char '['
          let d ← header d
          documentLines rounds d
      | some _ =>
          let d ← keyValueLine d
          documentLines rounds d

/-- Read a document. A byte order mark at its beginning counts for nothing. -/
def parse? (text : String) : Option Value := do
  let cs :=
    match text.toList with
    | '\uFEFF' :: rest => rest
    | cs => cs
  let (d, rest) ← documentLines (cs.length + 1) .empty cs
  if rest.isEmpty then some d.root else none

end RecordFlow.Toml
