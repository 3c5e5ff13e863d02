/-
# Scanning a text

A scanner is the text that is left, the place where it begins, and whether scanning has stopped.
Scanning stops after the token for the end of the text and after the first error; a caller may still
ask a stopped scanner for the token at its place. The whole scan of a text is also given as one
function on the text, which keeps the tokens that were found before an error.
-/

import RecordFlow.Token.Lexeme
import RecordFlow.Token.Trivia

namespace RecordFlow

/-- A fault and the place where the text at fault begins. -/
structure LexError where
  fault : LexFault
  position : Position
deriving DecidableEq

/-- The wording of an error with its place. -/
def LexError.message (e : LexError) : String := e.fault.message ++ " at " ++ e.position.phrase

/-- The state of a scan. -/
structure Scanner where
  /-- The characters that are left. -/
  rest : List Char
  /-- The place of the first of them. -/
  position : Position
  /-- Whether the end of the text or an error has been reported. -/
  stopped : Bool

namespace Scanner

/-- A scanner at the beginning of a text. -/
def ofText (source : String) : Scanner := ⟨source.toList, .start, false⟩

/-- Read the token at the scanner's place, stopped or not. At the end of the text this is the same
token every time. An error leaves the scanner behind the characters that were tried. -/
def token (s : Scanner) : Except LexError Token × Scanner :=
  let trivia := Scan.skipTrivia s.rest
  let start := s.position.after trivia.1
  match trivia.2 with
  | [] => (.ok (.plain .endOfFile start), ⟨[], start, s.stopped⟩)
  | c :: cs =>
      let reading := Scan.readLexeme c cs
      let behind : Scanner := ⟨reading.rest, start.after reading.consumed, s.stopped⟩
      match reading.outcome with
      | .ok found => (.ok ⟨found.kind, found.value, start⟩, behind)
      | .error fault => (.error ⟨fault, start⟩, behind)

/-- The next item of a scan, or none when it has stopped. -/
def next? (s : Scanner) : Option (Except LexError Token) × Scanner :=
  if s.stopped then (none, s)
  else
    match s.token with
    | (.ok t, behind) => (some (.ok t), { behind with stopped := t.kind == .endOfFile })
    | (.error e, behind) => (some (.error e), { behind with stopped := true })

end Scanner

/-- The tokens of a text up to its end or to the first error, and what the scan left unread. -/
structure Scan.Result where
  tokens : List Token
  error? : Option LexError
  /-- The characters behind the end of the scan. -/
  rest : List Char
  /-- The place of the first of them. -/
  position : Position
deriving DecidableEq

namespace Scan

/-- Put a token in front of a scan. -/
def Result.cons (t : Token) (r : Result) : Result := { r with tokens := t :: r.tokens }

/-- Behind the first lexeme of a text, trivia before it included, the text is shorter. -/
theorem rest_length_lt {cs rest : List Char} {c : Char} {found : Classified}
    (htext : (skipTrivia cs).2 = c :: rest) (hfound : (readLexeme c rest).outcome = .ok found) :
    (readLexeme c rest).rest.length < cs.length := by
  have hlt := readLexeme_rest_length_lt hfound
  have hle := skipTrivia_length_le cs
  rw [htext] at hle
  exact Nat.lt_of_lt_of_le hlt hle

/-- Scan a text that begins at `position`. -/
def scanFrom (position : Position) (cs : List Char) : Result :=
  match htext : (skipTrivia cs).2 with
  | [] =>
      let start := position.after (skipTrivia cs).1
      ⟨[.plain .endOfFile start], none, [], start⟩
  | c :: rest =>
      let start := position.after (skipTrivia cs).1
      let behind := start.after (readLexeme c rest).consumed
      match hfound : (readLexeme c rest).outcome with
      | .ok found =>
          have := rest_length_lt htext hfound
          .cons ⟨found.kind, found.value, start⟩ (scanFrom behind (readLexeme c rest).rest)
      | .error fault => ⟨[], some ⟨fault, start⟩, (readLexeme c rest).rest, behind⟩
termination_by cs.length

/-- Scan a text from its beginning. -/
def scan (source : String) : Result := scanFrom .start source.toList

end Scan

/-- What is left of a scan, and the scanner behind it: nothing when it has stopped, else the tokens
and the error, if any. -/
def Scanner.drain (s : Scanner) : List (Except LexError Token) × Scanner :=
  if s.stopped then ([], s)
  else
    let result := Scan.scanFrom s.position s.rest
    (result.tokens.map .ok ++ (result.error?.map .error).toList,
      ⟨result.rest, result.position, true⟩)

/-- The tokens of a text, the last of which marks its end, or the first error. -/
def tokenize (source : String) : Except LexError (List Token) :=
  let result := Scan.scan source
  match result.error? with
  | none => .ok result.tokens
  | some e => .error e

end RecordFlow
