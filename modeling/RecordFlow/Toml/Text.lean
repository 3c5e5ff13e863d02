/-
# TOML texts, keys and line ends

Strings come in four forms: with escapes or literal, on one line or on many. Control characters
other than the tab are refused everywhere. A string over many lines has its line breaks read as line
feeds, drops one at its very beginning, and may end in up to two quotes before the three that close
it.
-/

namespace RecordFlow.Toml

/-- A reader takes characters from the front of a text and gives back the rest, or fails. -/
abbrev Reader := StateT (List Char) Option

namespace Reader

variable {α : Type}

/-- Run a family of readers at the number of characters that are left, which bounds the rounds of
every loop that takes one in each. -/
def bounded (r : Nat → Reader α) : Reader α := fun cs => r cs.length cs

/-- Take the given character. -/
def char (expected : Char) : Reader Unit
  | c :: rest => if c = expected then some ((), rest) else none
  | [] => none

/-- Take the longest run of characters of a class. -/
def run (p : Char → Bool) : Reader (List Char) := fun cs =>
  some (cs.takeWhile p, cs.dropWhile p)

/-- The next character, which is not taken. -/
def peek? : Reader (Option Char) := fun cs => some (cs.head?, cs)

end Reader

open Reader

/-- A character that may stand in a comment or a string. -/
def isPrintable (c : Char) : Bool := c == '\t' || (0x20 ≤ c.toNat && c.toNat != 0x7F)

/-- A blank within a line. -/
def isGap (c : Char) : Bool := c == ' ' || c == '\t'

/-- Skip blanks within a line. -/
def gap : Reader Unit := do
  let _ ← run isGap
  return ()

/-- Take a line break. -/
def lineBreak : Reader Unit
  | '\n' :: rest => some ((), rest)
  | '\r' :: '\n' :: rest => some ((), rest)
  | _ => none

/-- Take a comment, if there is one, up to the end of its line. -/
def comment? : Reader Unit
  | '#' :: rest => some ((), rest.dropWhile isPrintable)
  | cs => some ((), cs)

/-- Take the end of a line or of the document. -/
def lineEnd : Reader Unit
  | [] => some ((), [])
  | cs => lineBreak cs

/-- Take what may follow a key-value pair or a header on its line. -/
def trailing : Reader Unit := do
  gap
  comment?
  lineEnd

/-- The value of a hexadecimal digit. -/
def hexValue? (c : Char) : Option Nat :=
  if c.isDigit then some (c.toNat - '0'.toNat)
  else if 'a' ≤ c ∧ c ≤ 'f' then some (c.toNat - 'a'.toNat + 10)
  else if 'A' ≤ c ∧ c ≤ 'F' then some (c.toNat - 'A'.toNat + 10)
  else none

/-- The character whose number these digits write in base sixteen, if there is one. -/
def scalar? (digits : List Char) : Option Char := do
  let values ← digits.mapM hexValue?
  let n := values.foldl (fun n d => n * 16 + d) 0
  if n.isValidChar then some (Char.ofNat n) else none

/-- Take a number of characters. -/
def takeN (n : Nat) : Reader (List Char) := fun cs =>
  if cs.length < n then none else some (cs.take n, cs.drop n)

/-- Take an escape, after its backslash. -/
def escape : Reader Char
  | 'b' :: rest => some ('\x08', rest)
  | 't' :: rest => some ('\t', rest)
  | 'n' :: rest => some ('\n', rest)
  | 'f' :: rest => some ('\x0c', rest)
  | 'r' :: rest => some ('\r', rest)
  | '"' :: rest => some ('"', rest)
  | '\\' :: rest => some ('\\', rest)
  | 'u' :: rest => do
      let (digits, rest) ← takeN 4 rest
      return (← scalar? digits, rest)
  | 'U' :: rest => do
      let (digits, rest) ← takeN 8 rest
      return (← scalar? digits, rest)
  | _ => none

/-- Take the rest of a string with escapes on one line, its closing quote included. -/
def escapedLine : (rounds : Nat) → Reader (List Char)
  | 0, _ => none
  | _, [] => none
  | _, '"' :: rest => some ([], rest)
  | rounds + 1, '\\' :: rest => do
      let (c, rest) ← escape rest
      let (more, rest) ← escapedLine rounds rest
      return (c :: more, rest)
  | rounds + 1, c :: rest => do
      guard (isPrintable c)
      let (more, rest) ← escapedLine rounds rest
      return (c :: more, rest)

/-- Take the rest of a literal string on one line, its closing quote included. -/
def literalLine : Reader (List Char)
  | [] => none
  | c :: rest =>
      if c = '\'' then some ([], rest)
      else if isPrintable c then do
        let (more, rest) ← literalLine rest
        return (c :: more, rest)
      else none

/-- The text behind three closing quotes and up to two quotes in front of them, which belong to the
string. -/
def closing? (quote : Char) (cs : List Char) : Option (List Char × List Char) :=
  match cs with
  | a :: b :: c :: rest =>
      if a = quote ∧ b = quote ∧ c = quote then
        match rest with
        | d :: e :: rest' =>
            if d = quote ∧ e = quote then some ([quote, quote], rest')
            else if d = quote then some ([quote], e :: rest')
            else some ([], rest)
        | [d] => if d = quote then some ([quote], []) else some ([], [d])
        | [] => some ([], [])
      else none
  | _ => none

/-- What follows blanks and line breaks. A carriage return is one only together with a line feed. -/
def afterLayout : List Char → List Char
  | '\n' :: rest => afterLayout rest
  | '\r' :: '\n' :: rest => afterLayout rest
  | c :: rest => if isGap c then afterLayout rest else c :: rest
  | [] => []

/-- Skip the blanks and line breaks behind a backslash that ends a line. -/
def continued? (cs : List Char) : Option (List Char) := do
  let (_, rest) ← lineBreak (cs.dropWhile isGap)
  return afterLayout rest

/-- Take the rest of a string over many lines, its closing quotes included. Only strings with
escapes look at backslashes. -/
def manyLines (quote : Char) (escapes : Bool) : (rounds : Nat) → Reader (List Char)
  | 0, _ => none
  | rounds + 1, cs =>
      match closing? quote cs with
      | some (quotes, rest) => some (quotes, rest)
      | none =>
          match cs with
          | [] => none
          | '\\' :: rest =>
              if escapes then
                match continued? rest with
                | some rest => manyLines quote escapes rounds rest
                | none => do
                    let (c, rest) ← escape rest
                    let (more, rest) ← manyLines quote escapes rounds rest
                    return (c :: more, rest)
              else do
                let (more, rest) ← manyLines quote escapes rounds rest
                return ('\\' :: more, rest)
          | c :: rest =>
              match lineBreak (c :: rest) with
              | some (_, rest) => do
                  let (more, rest) ← manyLines quote escapes rounds rest
                  return ('\n' :: more, rest)
              | none => do
                  guard (isPrintable c)
                  let (more, rest) ← manyLines quote escapes rounds rest
                  return (c :: more, rest)

/-- Skip one line break, if it comes next. -/
def firstBreak : Reader Unit := fun cs =>
  match lineBreak cs with
  | some (_, rest) => some ((), rest)
  | none => some ((), cs)

/-- Take a string of any form. -/
def string : Reader String
  | '"' :: '"' :: '"' :: rest => do
      let (_, rest) ← firstBreak rest
      let (body, rest) ← bounded (fun n => manyLines '"' true (n + 1)) rest
      return (String.ofList body, rest)
  | '\'' :: '\'' :: '\'' :: rest => do
      let (_, rest) ← firstBreak rest
      let (body, rest) ← bounded (fun n => manyLines '\'' false (n + 1)) rest
      return (String.ofList body, rest)
  | '"' :: rest => do
      let (body, rest) ← bounded escapedLine rest
      return (String.ofList body, rest)
  | '\'' :: rest => do
      let (body, rest) ← literalLine rest
      return (String.ofList body, rest)
  | _ => none

/-- A character of a key without quotes. -/
def isBareKey (c : Char) : Bool := c.isAlphanum || c == '_' || c == '-'

/-- Take a key without dots. -/
def simpleKey : Reader String
  | '"' :: rest => do
      let (body, rest) ← bounded escapedLine rest
      return (String.ofList body, rest)
  | '\'' :: rest => do
      let (body, rest) ← literalLine rest
      return (String.ofList body, rest)
  | cs =>
      let word := cs.takeWhile isBareKey
      if word.isEmpty then none else some (String.ofList word, cs.dropWhile isBareKey)

/-- Take the keys after the first one of a dotted key. -/
def moreKeys : (rounds : Nat) → Reader (List String)
  | 0 => return []
  | rounds + 1 => do
      match ← peek? with
      | some '.' =>
          char '.'
          gap
          let key ← simpleKey
          gap
          let rest ← moreKeys rounds
          return key :: rest
      | _ => return []

/-- The number of nested values and of keys in a dotted key at which a document is refused. -/
def depthLimit : Nat := 80

/-- Take a key with its dots and the blanks around it. -/
def dottedKey : Reader (List String) := do
  gap
  let first ← simpleKey
  gap
  let rest ← bounded moreKeys
  guard (rest.length + 1 < depthLimit)
  return first :: rest

end RecordFlow.Toml
