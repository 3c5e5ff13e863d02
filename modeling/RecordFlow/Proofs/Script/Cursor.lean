/-
# Reading a whole script through a cursor

Reading a script, recovery included, is carried out on a table of tokens by moving a cursor. No look
falls outside of the table, whatever tokens it holds, and every round moves the cursor on by at
least one token. So reading always ends, and it cannot find more statements and errors than there
are tokens before the end of the text. Behind the first token for the end nothing is looked at.
-/

import RecordFlow.Proofs.Production.Cursor
import RecordFlow.Proofs.Script.Rounds

namespace RecordFlow

open Production

namespace Script

/-- The table that is read: the tokens, with one for the end of the text unless the last one is. -/
def table (ts : List Token) : List Token :=
  if ts.getLast?.map Token.kind = some .endOfFile then ts
  else ts ++ [.plain .endOfFile ((ts.getLast?.map Token.position).getD .start)]

/-- The tokens up to the first one that marks the end of the text. -/
def throughEnd (ts : List Token) : List Token := beforeEnd ts ++ (ts.find? isFinal).toList

/-- The table of any list of tokens holds one for the end of the text. -/
theorem table_cut (ts : List Token) : Table (table ts) (beforeEnd ts) (finalToken ts) := by
  have hbefore : ∀ t ∈ beforeEnd ts, ¬isFinal t := not_isFinal_of_mem_beforeEnd ts
  cases hfind : ts.find? isFinal with
  | some final =>
      have hfinal : finalToken ts = final := by rw [finalToken, hfind]
      obtain ⟨hkind, front, beyond, rfl, hfront⟩ := List.find?_eq_some_iff_append.mp hfind
      have hcut : beforeEnd (front ++ final :: beyond) = front := by
        refine (body_append_final ?_ (eq_of_beq hkind) beyond).1
        intro t ht heq
        simpa [isFinal, heq] using hfront t ht
      rw [hfinal, hcut]
      rw [hcut] at hbefore
      refine ⟨?_, hkind, hbefore⟩
      unfold table
      split
      · exact ⟨beyond, rfl⟩
      · exact ⟨beyond ++ _, by rw [List.append_assoc, List.cons_append]⟩
  | none =>
      have hnone := List.find?_eq_none.mp hfind
      have hlast : ts.getLast?.map Token.kind ≠ some .endOfFile := by
        intro hlast
        obtain ⟨last, hmem, hkind⟩ := Option.map_eq_some_iff.mp hlast
        exact hnone last (List.mem_of_getLast? hmem) (beq_iff_eq.mpr hkind)
      refine ⟨⟨[], ?_⟩, ?_, hbefore⟩
      · rw [table, if_neg hlast, beforeEnd, body_eq_self hnone, finalToken, hfind]
      · rw [finalToken, hfind]
        rfl

/-- What stands behind the first token for the end of the text makes no difference. -/
theorem parse_throughEnd (ts : List Token) : parse (throughEnd ts) = parse ts := by
  cases hfind : ts.find? isFinal with
  | none =>
      have hall : beforeEnd ts = ts := body_eq_self (List.find?_eq_none.mp hfind)
      rw [throughEnd, hfind, Option.toList_none, List.append_nil, hall]
  | some final =>
      have hfinal : isFinal final := List.find?_some hfind
      have hbefore : ∀ t ∈ beforeEnd ts, t.kind ≠ .endOfFile := by
        simpa [isFinal] using not_isFinal_of_mem_beforeEnd ts
      obtain ⟨hbody, hend⟩ := body_append_final hbefore (eq_of_beq hfinal) []
      have hsame : finalToken ts = final := by rw [finalToken, hfind]
      rw [throughEnd, hfind, Option.toList_some]
      simp only [parse, hbody, hend, hsame]
      rfl

/-- Every statement and every error takes a token. -/
theorem length_readStatements_le (final : Token) (ts : List Token) :
    (readStatements final ts).1.length + (readStatements final ts).2.length ≤ ts.length := by
  induction ts using rounds_induction final with
  | nil => simp [readStatements]
  | ok t rest statement behind hround ih =>
      have hshorter := (suffix_of_round hround).length_le
      simp only [readStatements_of_ok hround, List.length_cons]
      omega
  | error t rest e behind hround ih =>
      have hshorter := (suffix_of_round hround).length_le
      simp only [readStatements_of_error hround, List.length_cons]
      omega

end Script

namespace Cursor

/-- The cursor at which reading can go on after an error, if it is found in fewer than `steps`
steps. -/
def recover (tokens : List Token) : (steps : Nat) → Nat → Option Nat
  | 0, _ => none
  | steps + 1, i => do
      let t ← tokens[i]?
      if Script.isFinal t then return i
      else if Script.beginsStatement (t :: tokens[i + 1]?.toList) then return i
      else if t.kind = .punctuation .semicolon then return i + 1
      else recover tokens steps (i + 1)

/-- Read one statement, or recover from an error. The reader has a program for every token that
begins a statement. -/
def round (reader : Token → Option (Program Statement)) (tokens : List Token) (bound i : Nat) :
    Option (Except ParseError Statement × Nat) := do
  let t ← tokens[i]?
  match reader t with
  | none =>
      let j ←
        if t.kind = .punctuation .semicolon then some (i + 1) else recover tokens bound (i + 1)
      return (.error (Script.strayToken t), j)
  | some program =>
      match ← program.walk tokens bound (i + 1) with
      | (.ok statement, j) => return (.ok statement, j)
      | (.error what, j) =>
          let blamed ← tokens[j]?
          let k ← recover tokens bound j
          return (.error ⟨.expected what, blamed⟩, k)

/-- Read statements up to the end of the text, if this takes fewer than `rounds` rounds. -/
def readStatements (reader : Token → Option (Program Statement)) (tokens : List Token)
    (bound : Nat) : (rounds : Nat) → Nat → Option (List Statement × List ParseError)
  | 0, _ => none
  | rounds + 1, i => do
      let t ← tokens[i]?
      if Script.isFinal t then return ([], [])
      let (found, j) ← round reader tokens bound i
      let more ← readStatements reader tokens bound rounds j
      match found with
      | .ok statement => return (statement :: more.1, more.2)
      | .error e => return (more.1, e :: more.2)

/-- Read a script through a cursor, with a bound on the rounds of all loops and on nesting. -/
def parse? (reader : Token → Option (Program Statement)) (bound : Nat) (ts : List Token) :
    Option Parsed := do
  let first ← (Script.table ts)[0]?
  let read ← readStatements reader (Script.table ts) bound bound 0
  return ⟨⟨first, read.1⟩, read.2⟩

/-- A reader that has a program for each statement that a token can begin. -/
def Serves (reader : Token → Option (Program Statement)) : Prop :=
  ∀ t, Option.Rel (fun program body => program.CarriesOut (Statement.closed body)) (reader t)
    (Statement.body? t)

theorem exists_serves : ∃ reader, Serves reader := by
  have hreader : ∀ t, ∃ program? : Option (Program Statement),
      Option.Rel (fun program body => program.CarriesOut (Statement.closed body)) program?
        (Statement.body? t) := by
    intro t
    cases hbody : Statement.body? t with
    | none => exact ⟨none, .none⟩
    | some body =>
        obtain ⟨program, hprogram⟩ := byCursor_closed hbody
        exact ⟨some program, .some hprogram⟩
  choose reader hreader using hreader
  exact ⟨reader, hreader⟩

section Table

variable {tokens before : List Token} {final : Token} {bound i : Nat}
  {reader : Token → Option (Program Statement)}

/-- The one token of lookahead may be the one for the end of the text, which begins nothing. -/
theorem beginsStatement_lookup (h : Table tokens before final) (hi : i < before.length)
    (t : Token) :
    Script.beginsStatement (t :: tokens[i + 1]?.toList) =
      Script.beginsStatement (t :: before.drop (i + 1)) := by
  rcases h.lookup hi with ⟨-, u, hlook, -, hleft⟩ | ⟨-, hlook, hleft⟩
  · rw [hlook, hleft]
    rfl
  · have hkind : final.kind = .endOfFile := eq_of_beq h.isFinal_final
    have hequal : (final.kind == .punctuation .equal) = false := by rw [hkind]; rfl
    rw [hlook, hleft]
    simp only [Script.beginsStatement, Option.toList_some, hequal]

theorem recover_eq (h : Table tokens before final) (steps : Nat) (hi : i ≤ before.length)
    (hsteps : before.length - i < steps) :
    ∃ j, i ≤ j ∧ j ≤ before.length ∧ recover tokens steps i = some j ∧
      Script.recover (before.drop i) = before.drop j := by
  induction steps generalizing i with
  | zero => exact absurd hsteps (Nat.not_lt_zero _)
  | succ steps ih =>
      rcases h.lookup hi with ⟨hlt, t, hlook, ht, hleft⟩ | ⟨rfl, hlook, hleft⟩
      · have hbegins := beginsStatement_lookup h hlt t
        rw [hleft]
        by_cases hstart : Script.beginsStatement (t :: before.drop (i + 1))
        · refine ⟨i, Nat.le_refl i, hi, ?_, ?_⟩
          · simp [recover, hlook, ht, hbegins, hstart]
          · rw [Script.recover, if_pos hstart, hleft]
        · by_cases hkind : t.kind = .punctuation .semicolon
          · refine ⟨i + 1, Nat.le_succ i, hlt, ?_, ?_⟩
            · simp [recover, hlook, ht, hbegins, hstart, hkind]
            · rw [Script.recover, if_neg hstart, if_pos hkind]
          · obtain ⟨j, hij, hj, hrecover, hrest⟩ := ih hlt (by omega)
            refine ⟨j, Nat.le_of_succ_le hij, hj, ?_, ?_⟩
            · simp [recover, hlook, ht, hbegins, hstart, hkind, hrecover]
            · rw [Script.recover, if_neg hstart, if_neg hkind, hrest]
      · refine ⟨before.length, Nat.le_refl _, hi, ?_, ?_⟩
        · simp [recover, hlook, h.isFinal_final]
        · rw [hleft, Script.recover]

/-- Where a statement cannot be read on, the cursor stands at the token to blame. -/
theorem lookup_blamed (h : Table tokens before final) (hi : i ≤ before.length) :
    tokens[i]? = some ((before.drop i).headD final) := by
  rcases h.lookup hi with ⟨-, t, hlook, -, hleft⟩ | ⟨-, hlook, hleft⟩
  · rw [hlook, hleft]
    rfl
  · rw [hlook, hleft]
    rfl

/-- Every round has a result and moves the cursor on, up to the end of the text at most. -/
theorem round_eq (hreader : Serves reader) (h : Table tokens before final)
    (hbound : before.length < bound) (hi : i < before.length) {t : Token}
    (ht : before.drop i = t :: before.drop (i + 1)) :
    ∃ r j, i < j ∧ j ≤ before.length ∧ round reader tokens bound i = some (r, j) ∧
      Script.round final t (before.drop (i + 1)) = (r, before.drop j) := by
  have hlook : tokens[i]? = some t := by rw [lookup_blamed h (Nat.le_of_lt hi), ht]; rfl
  have hserved := hreader t
  unfold Script.round
  rcases hprogram : reader t with _ | program <;> rcases hbody : Statement.body? t with _ | body <;>
    rw [hprogram, hbody] at hserved <;> cases hserved
  · by_cases hkind : t.kind = .punctuation .semicolon
    · refine ⟨.error (Script.strayToken t), i + 1, Nat.lt_succ_self i, hi, ?_, ?_⟩
      · simp [round, hlook, hprogram, hkind]
      · simp [Script.recoverFrom, hkind]
    · obtain ⟨j, hij, hj, hrecover, hrest⟩ := recover_eq h bound hi (by omega)
      refine ⟨.error (Script.strayToken t), j, hij, hj, ?_, ?_⟩
      · simp [round, hlook, hprogram, hkind, hrecover]
      · simp [Script.recoverFrom, hkind, hrest]
  · next hcarries =>
      obtain ⟨r, j, hij, hj, hwalk, hrun⟩ := hcarries h (Nat.le_of_lt hbound) hi
      cases r with
      | ok statement =>
          refine ⟨.ok statement, j, hij, hj, ?_, ?_⟩
          · simp [round, hlook, hprogram, hwalk]
          · simp [hrun, outcome]
      | error what =>
          obtain ⟨k, hjk, hk, hrecover, hrest⟩ := recover_eq h bound hj (by omega)
          refine ⟨.error ⟨.expected what, (before.drop j).headD final⟩, k,
            Nat.lt_of_lt_of_le hij hjk, hk, ?_, ?_⟩
          · simp [round, hlook, hprogram, hwalk, lookup_blamed h hj, hrecover]
          · simp [hrun, outcome, hrest]

theorem readStatements_eq (hreader : Serves reader) (h : Table tokens before final)
    (hbound : before.length < bound) (rounds : Nat) (hi : i ≤ before.length)
    (hrounds : before.length - i < rounds) :
    readStatements reader tokens bound rounds i =
      some (Script.readStatements final (before.drop i)) := by
  induction rounds generalizing i with
  | zero => exact absurd hrounds (Nat.not_lt_zero _)
  | succ rounds ih =>
      rcases h.lookup hi with ⟨hlt, t, hlook, ht, hleft⟩ | ⟨rfl, hlook, hleft⟩
      · obtain ⟨r, j, hij, hj, hround, hlist⟩ := round_eq hreader h hbound hlt hleft
        have hmore := ih hj (by omega)
        rw [hleft]
        cases r with
        | ok statement =>
            rw [Script.readStatements_of_ok hlist]
            simp [readStatements, hlook, ht, hround, hmore]
        | error e =>
            rw [Script.readStatements_of_error hlist]
            simp [readStatements, hlook, ht, hround, hmore]
      · rw [hleft, Script.readStatements]
        simp [readStatements, hlook, h.isFinal_final]

end Table

/-- With any bound above the number of tokens before the end of the text, reading through the cursor
has a result, and it is the one that reading gives. -/
theorem parse?_eq {reader : Token → Option (Program Statement)} (hreader : Serves reader)
    {ts : List Token} {bound : Nat} (hbound : (Script.beforeEnd ts).length < bound) :
    parse? reader bound ts = some (parse ts) := by
  have htable := Script.table_cut ts
  have hfirst := lookup_blamed htable (Nat.zero_le _)
  have hread := readStatements_eq hreader htable hbound bound (Nat.zero_le _) hbound
  rw [List.drop_zero] at hfirst hread
  simp only [parse?, hfirst, hread, Option.bind_eq_bind, Option.bind_some]
  rfl

end Cursor

/-- Reading is total and safe. There are programs made of looks at the cursor that carry out the
reading of each statement. With them every list of tokens is read, under any bound on loops and
nesting above the number of tokens before the end of the text: no look falls outside of the table,
so there is a result, and it is the script and the errors. From each number before the end a round
moves the cursor on by a token at least, to a number in the table. So there are at most as many
statements and errors as tokens before the end, and tokens behind the first one for the end make no
difference. -/
theorem parse_total_and_safe :
    ∃ reader, Cursor.Serves reader ∧ ∀ ts : List Token,
      (∀ bound, (Script.beforeEnd ts).length < bound →
        Cursor.parse? reader bound ts = some (parse ts) ∧
          ∀ i < (Script.beforeEnd ts).length, ∃ found j,
            Cursor.round reader (Script.table ts) bound i = some (found, j) ∧
              i < j ∧ j < (Script.table ts).length) ∧
        (parse ts).script.statements.length + (parse ts).errors.length ≤
          (Script.beforeEnd ts).length ∧
        parse (Script.throughEnd ts) = parse ts := by
  obtain ⟨reader, hreader⟩ := Cursor.exists_serves
  refine ⟨reader, hreader, fun ts => ⟨fun bound hbound => ?_, ?_, Script.parse_throughEnd ts⟩⟩
  · refine ⟨Cursor.parse?_eq hreader hbound, fun i hi => ?_⟩
    have htable := Script.table_cut ts
    obtain ⟨found, j, hij, hj, hround, -⟩ :=
      Cursor.round_eq hreader htable hbound hi (List.drop_eq_getElem_cons hi)
    exact ⟨found, j, hround, hij, Nat.lt_of_le_of_lt hj htable.length_lt⟩
  · exact Script.length_readStatements_le _ _

end RecordFlow
