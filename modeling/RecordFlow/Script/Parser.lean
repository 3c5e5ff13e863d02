/-
# Reading scripts

Statements are read one after another. A statement that cannot be read is reported once, and
reading goes on behind its semicolon or in front of the next token that looks like the beginning of
a statement, whichever comes first. So every statement that can be read is found, and each error is
about one place. Reading stops at the first token that marks the end of the text.
-/

import RecordFlow.Script.Production.Statement

namespace RecordFlow

/-- What reading a script gives: the statements that could be read, and the errors. -/
structure Parsed where
  script : Script
  errors : List ParseError
deriving DecidableEq

namespace Script

/-- Whether a list of tokens looks like the beginning of a statement. A name does so only in front
of an equals sign. -/
def beginsStatement : List Token → Bool
  | t :: rest =>
      match t.kind with
      | .keyword .OUTPUT | .keyword .PARAM | .keyword .IMPORT | .keyword .EXPORT => true
      | .punctuation .atSign => true
      | .identifier =>
          match rest with
          | next :: _ => next.kind == .punctuation .equal
          | [] => false
      | _ => false
  | [] => false

/-- Skip to where reading can go on after an error. -/
def recover : List Token → List Token
  | [] => []
  | t :: rest =>
      if beginsStatement (t :: rest) then t :: rest
      else if t.kind = .punctuation .semicolon then rest
      else recover rest

/-- Skip to where reading can go on after `t`, which begins no statement. A semicolon that stands
alone ends its own statement. -/
def recoverFrom (t : Token) (rest : List Token) : List Token :=
  if t.kind = .punctuation .semicolon then rest else recover rest

/-- The error for a token that begins no statement. -/
def strayToken (t : Token) : ParseError :=
  ⟨if t.kind.isDirective then .unsupportedDirective else .unexpected, t⟩

/-- Recovery only skips. -/
theorem recover_suffix (ts : List Token) : recover ts <:+ ts := by
  induction ts with
  | nil => exact List.suffix_refl _
  | cons t rest ih =>
      rw [recover]
      split
      · exact List.suffix_refl _
      · split
        · exact List.suffix_cons t rest
        · exact ih.trans (List.suffix_cons t rest)

theorem recoverFrom_suffix (t : Token) (rest : List Token) : recoverFrom t rest <:+ rest := by
  unfold recoverFrom
  split
  · exact List.suffix_refl _
  · exact recover_suffix rest

/-- What reading one statement does: the statement or the error, and the tokens to go on with. The
token `final` is the one to blame when the tokens have run out. -/
def round (final t : Token) (rest : List Token) : Except ParseError Statement × List Token :=
  match Statement.body? t with
  | none => (.error (strayToken t), recoverFrom t rest)
  | some body =>
      match Statement.closed body rest with
      | .ok statement behind => (.ok statement, behind)
      | .error what behind => (.error ⟨.expected what, behind.headD final⟩, recover behind)

/-- A round reads at least its first token. -/
theorem round_suffix (final t : Token) (rest : List Token) :
    (round final t rest).2 <:+ rest := by
  unfold round
  split
  · exact recoverFrom_suffix t rest
  · next body hbody =>
      have hforward := Production.forward_closed (Production.forward_body hbody) rest
      unfold Production.left at hforward
      split at hforward
      · next hread => simpa [hread] using hforward
      · next what behind hread =>
          simp only [hread]
          exact (recover_suffix behind).trans hforward

/-- Read statements up to the end of the tokens. -/
def readStatements (final : Token) : List Token → List Statement × List ParseError
  | [] => ([], [])
  | t :: rest =>
      have := (round_suffix final t rest).length_le
      let more := readStatements final (round final t rest).2
      match (round final t rest).1 with
      | .ok statement => (statement :: more.1, more.2)
      | .error e => (more.1, e :: more.2)
termination_by ts => ts.length

/-- Whether a token marks the end of the text. -/
def isFinal (t : Token) : Bool := t.kind == .endOfFile

/-- The token that marks the end of the text. Where a list has none, one is added at the place of
its last token. -/
def finalToken (ts : List Token) : Token :=
  match ts.find? isFinal with
  | some t => t
  | none => .plain .endOfFile ((ts.getLast?.map Token.position).getD .start)

end Script

/-- Read a script from its tokens. -/
def parse (ts : List Token) : Parsed :=
  let final := Script.finalToken ts
  let body := ts.takeWhile fun t => !Script.isFinal t
  let read := Script.readStatements final body
  ⟨⟨body.headD final, read.1⟩, read.2⟩

end RecordFlow
