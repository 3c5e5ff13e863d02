/-
# Reading does not look at places

A token says where it stands, and reading hands that on to the script and to its errors without ever
looking at it. To read tokens that have been moved is to move what was read, whatever the move is.
In particular two lists of tokens that differ in nothing but places are read as scripts and errors
that differ in nothing but places.
-/

import RecordFlow.Proofs.Script.Rounds
import RecordFlow.Proofs.Token.Partition

namespace RecordFlow

/-- A token moved to another place. -/
def Token.moved (place : Position → Position) (t : Token) : Token :=
  { t with position := place t.position }

variable (place : Position → Position)

/-- A name with its token moved. -/
def Name.moved (name : Name) : Name := ⟨name.token.moved place, name.text⟩

def TextLiteral.moved (literal : TextLiteral) : TextLiteral :=
  ⟨literal.token.moved place, literal.value⟩

def NumberLiteral.moved (literal : NumberLiteral) : NumberLiteral :=
  ⟨literal.token.moved place, literal.value⟩

def TruthLiteral.moved (literal : TruthLiteral) : TruthLiteral :=
  ⟨literal.token.moved place, literal.value⟩

def Expression.moved (e : Expression) : Expression := ⟨e.token.moved place, e.code⟩

/-- The value of a field with its tokens moved. -/
def FieldValue.moved : FieldValue → FieldValue
  | input space? name => .input (space?.map (Name.moved place)) (name.moved place)
  | text literal => .text (literal.moved place)
  | number literal => .number (literal.moved place)
  | truth literal => .truth (literal.moved place)
  | expression e => .expression (e.moved place)

def FieldAlias.moved (announced : FieldAlias) : FieldAlias :=
  ⟨announced.token.moved place, announced.name.moved place⟩

def Field.moved (field : Field) : Field :=
  ⟨field.value.moved place, field.alias?.map (FieldAlias.moved place)⟩

/-- A choice of fields with its tokens moved. -/
def Fields.moved : Fields → Fields
  | star token => .star (token.moved place)
  | list first rest => .list (first.moved place) (rest.map (Field.moved place))

def Filter.moved (filter : Filter) : Filter :=
  ⟨filter.token.moved place, filter.condition.moved place⟩

/-- A source with its tokens moved. -/
def Source.moved : Source → Source
  | file token choice path => .file (token.moved place) (choice.moved place) (path.moved place)
  | named name => .named (name.moved place)
  | select token choice source filter? =>
      .select (token.moved place) (choice.moved place) source.moved
        (filter?.map (Filter.moved place))
  | aliased token source name => .aliased (token.moved place) source.moved (name.moved place)
  | join token left right condition =>
      .join (token.moved place) left.moved right.moved (condition.moved place)

def TypedName.moved (typed : TypedName) : TypedName :=
  ⟨typed.token.moved place, typed.name.moved place, typed.typeName.moved place⟩

/-- A value of a variable with its tokens moved. -/
def Value.moved : Value → Value
  | text literal => .text (literal.moved place)
  | number literal => .number (literal.moved place)
  | truth literal => .truth (literal.moved place)
  | reference token name => .reference (token.moved place) (name.moved place)
  | expression e => .expression (e.moved place)

/-- A statement with its tokens moved. -/
def Statement.moved : Statement → Statement
  | assign name source => .assign (name.moved place) (source.moved place)
  | output token source path =>
      .output (token.moved place) (source.moved place) (path.moved place)
  | param token typed default? =>
      .param (token.moved place) (typed.moved place) (default?.map (Value.moved place))
  | importName token name path =>
      .importName (token.moved place) (name.moved place) (path.moved place)
  | exportName token name => .exportName (token.moved place) (name.moved place)
  | setVariable token name value =>
      .setVariable (token.moved place) (name.moved place) (value.moved place)
  | defineVariable typed value => .defineVariable (typed.moved place) (value.moved place)

/-- A script with its tokens moved. -/
def Script.moved (script : Script) : Script :=
  ⟨script.token.moved place, script.statements.map (Statement.moved place)⟩

/-- An error with the blamed token moved. -/
def ParseError.moved (e : ParseError) : ParseError := ⟨e.fault, e.found.moved place⟩

/-! ## Productions

A production looks at kinds and payloads of tokens and never at their places, so moving the tokens
moves what it reads. This is kept by every way to put productions together. -/

namespace Production

variable {place} {α β : Type}

/-- A result with what was read and what is left moved. -/
def movedResult (place : Position → Position) (move : α → α) :
    EStateM.Result Expected (List Token) α → EStateM.Result Expected (List Token) α
  | .ok a rest => .ok (move a) (rest.map (Token.moved place))
  | .error what rest => .error what (rest.map (Token.moved place))

/-- A production that does on moved tokens what another does on the tokens, moved. -/
def Tracks (place : Position → Position) (move : α → α) (p q : Production α) : Prop :=
  ∀ ts, q (ts.map (Token.moved place)) = movedResult place move (p ts)

variable {move : α → α} {moveNext : β → β}

theorem tracks_pure (a : α) : Tracks place move (pure a) (pure (move a)) := fun _ => rfl

theorem tracks_fail (what : Expected) : Tracks place move (fail what) (fail what) := fun _ => rfl

theorem tracks_bind {p q : Production α} {f g : α → Production β} (hp : Tracks place move p q)
    (hf : ∀ a, Tracks place moveNext (f a) (g (move a))) :
    Tracks place moveNext (p >>= f) (q >>= g) := by
  intro ts
  have hrun := hp ts
  cases hfirst : p ts with
  | ok a rest =>
      rw [hfirst] at hrun
      rw [bind_of_ok hfirst, bind_of_ok hrun]
      exact hf a rest
  | error what rest =>
      rw [hfirst] at hrun
      rw [bind_of_error hfirst, bind_of_error hrun]
      rfl

theorem tracks_choose {what : Expected} {after? other? : Token → Option (Production α)}
    (h : ∀ t, Option.Rel (Tracks place move) (after? t) (other? (t.moved place))) :
    Tracks place move (choose what after?) (choose what other?) := by
  intro ts
  cases ts with
  | nil => rfl
  | cons t rest =>
      have ht := h t
      rw [List.map_cons, choose, choose]
      generalize after? t = first at ht
      generalize other? (t.moved place) = second at ht
      cases ht with
      | none => rfl
      | some hp => exact hp rest

theorem tracks_acceptIf (test : TokenKind → Bool) :
    Tracks place (Option.map (Token.moved place)) (acceptIf fun t => test t.kind)
      (acceptIf fun t => test t.kind) := by
  intro ts
  cases ts with
  | nil => rfl
  | cons t rest =>
      have hkind : (t.moved place).kind = t.kind := rfl
      rw [List.map_cons, acceptIf, acceptIf, hkind]
      by_cases htest : test t.kind
      · rw [if_pos htest, if_pos htest]
        rfl
      · rw [if_neg htest, if_neg htest]
        rfl

theorem tracks_accept? (kind : TokenKind) :
    Tracks place (Option.map (Token.moved place)) (accept? kind) (accept? kind) := by
  rw [accept?_eq_acceptIf]
  exact tracks_acceptIf (· == kind)

theorem tracks_take (kind : TokenKind) (what : Expected) :
    Tracks place (Token.moved place) (take kind what) (take kind what) := by
  apply tracks_choose
  intro t
  have hkind : (t.moved place).kind = t.kind := rfl
  rw [hkind]
  by_cases ht : t.kind = kind
  · rw [if_pos ht, if_pos ht]
    exact .some (tracks_pure t)
  · rw [if_neg ht, if_neg ht]
    exact .none

theorem tracks_bounded {p q : Nat → Production α} (h : ∀ n, Tracks place move (p n) (q n)) :
    Tracks place move (bounded p) (bounded q) := by
  intro ts
  rw [bounded, List.length_map]
  exact h ts.length ts

theorem tracks_name (what : Expected) :
    Tracks place (Name.moved place) (Name.production what) (Name.production what) :=
  tracks_bind (tracks_take _ _) fun t => tracks_pure (Name.ofToken t)

theorem tracks_text (what : Expected) :
    Tracks place (TextLiteral.moved place) (TextLiteral.production what)
      (TextLiteral.production what) :=
  tracks_bind (tracks_take _ _) fun t => tracks_pure (TextLiteral.ofToken t)

theorem tracks_expression (what : Expected) :
    Tracks place (Expression.moved place) (Expression.production what)
      (Expression.production what) :=
  tracks_bind (tracks_take _ _) fun t => tracks_pure (Expression.ofToken t)

theorem tracks_afterName (first : Name) :
    Tracks place (FieldValue.moved place) (FieldValue.afterName first)
      (FieldValue.afterName (first.moved place)) := by
  apply tracks_bind (tracks_accept? _)
  intro found
  cases found with
  | none => exact tracks_pure (FieldValue.input none first)
  | some _ =>
      exact tracks_bind (tracks_name _) fun name => tracks_pure (FieldValue.input (some first) name)

theorem tracks_fieldValue :
    Tracks place (FieldValue.moved place) FieldValue.production FieldValue.production := by
  apply tracks_choose
  intro t
  have hkind : (t.moved place).kind = t.kind := rfl
  unfold FieldValue.after?
  rw [hkind]
  split
  · exact .some (tracks_pure (FieldValue.expression (.ofToken t)))
  · exact .some (tracks_pure (FieldValue.text (.ofToken t)))
  · exact .some (tracks_pure (FieldValue.number (.ofToken t)))
  · exact .some (tracks_pure (FieldValue.number (.ofToken t)))
  · exact .some (tracks_pure (FieldValue.truth (.ofToken t)))
  · exact .some (tracks_afterName (.ofToken t))
  · exact .none

theorem tracks_field :
    Tracks place (Field.moved place) Field.production Field.production := by
  apply tracks_bind tracks_fieldValue
  intro value
  apply tracks_bind (tracks_accept? _)
  intro found
  cases found with
  | none => exact tracks_pure (⟨value, none⟩ : Field)
  | some announcement =>
      exact tracks_bind (tracks_name _) fun name =>
        tracks_pure (⟨value, some ⟨announcement, name⟩⟩ : Field)

theorem tracks_moreFields (rounds : Nat) :
    Tracks place (List.map (Field.moved place)) (Fields.more rounds) (Fields.more rounds) := by
  induction rounds with
  | zero => exact tracks_pure []
  | succ rounds ih =>
      apply tracks_bind (tracks_accept? _)
      intro found
      cases found with
      | none => exact tracks_pure []
      | some _ =>
          exact tracks_bind tracks_field fun field => tracks_bind ih fun rest =>
            tracks_pure (field :: rest)

theorem tracks_fields :
    Tracks place (Fields.moved place) Fields.production Fields.production := by
  apply tracks_bind (tracks_accept? _)
  intro found
  cases found with
  | some token => exact tracks_pure (Fields.star token)
  | none =>
      exact tracks_bind tracks_field fun first =>
        tracks_bind (tracks_bounded tracks_moreFields) fun rest =>
          tracks_pure (Fields.list first rest)

theorem tracks_filter :
    Tracks place (Option.map (Filter.moved place)) Filter.production? Filter.production? := by
  apply tracks_bind (tracks_accept? _)
  intro found
  cases found with
  | none => exact tracks_pure none
  | some token =>
      exact tracks_bind (tracks_expression _) fun condition =>
        tracks_pure (some (⟨token, condition⟩ : Filter))

section Nesting

variable {nested side : Production Source}

theorem tracks_plain (h : Tracks place (Source.moved place) nested nested) :
    Tracks place (Source.moved place) (Source.plain nested) (Source.plain nested) := by
  apply tracks_choose
  intro t
  have hkind : (t.moved place).kind = t.kind := rfl
  unfold Source.after?
  rw [hkind]
  split
  · exact .some (tracks_bind tracks_fields fun choice => tracks_bind (tracks_take _ _) fun _ =>
      tracks_bind (tracks_text _) fun path => tracks_pure (Source.file t choice path))
  · exact .some (tracks_bind tracks_fields fun choice => tracks_bind (tracks_take _ _) fun _ =>
      tracks_bind h fun source => tracks_bind tracks_filter fun filter? =>
        tracks_pure (Source.select t choice source filter?))
  · exact .some (tracks_pure (Source.named (.ofToken t)))
  · exact .some (tracks_bind h fun source => tracks_bind (tracks_take _ _) fun _ =>
      tracks_pure source)
  · exact .none

theorem tracks_aliasable (h : Tracks place (Source.moved place) nested nested) :
    Tracks place (Source.moved place) (Source.aliasable nested) (Source.aliasable nested) := by
  apply tracks_bind (tracks_plain h)
  intro source
  apply tracks_bind (tracks_accept? _)
  intro found
  cases found with
  | none => exact tracks_pure source
  | some token =>
      exact tracks_bind (tracks_name _) fun name => tracks_pure (Source.aliased token source name)

theorem tracks_joins (h : Tracks place (Source.moved place) side side) (rounds : Nat)
    (left : Source) :
    Tracks place (Source.moved place) (Source.joins side rounds left)
      (Source.joins side rounds (left.moved place)) := by
  induction rounds generalizing left with
  | zero => exact tracks_pure left
  | succ rounds ih =>
      have hoperator : Tracks place (Option.map (Token.moved place)) Source.joinOperator?
          Source.joinOperator? := by
        rw [joinOperator?_eq_acceptIf]
        exact tracks_acceptIf TokenKind.isJoinOperator
      apply tracks_bind hoperator
      intro found
      cases found with
      | none => exact tracks_pure left
      | some token =>
          exact tracks_bind (tracks_take _ _) fun _ => tracks_bind h fun right =>
            tracks_bind (tracks_take _ _) fun _ =>
              tracks_bind (tracks_expression _) fun condition =>
                ih (.join token left right condition)

theorem tracks_within (depth : Nat) :
    Tracks place (Source.moved place) (Source.within depth) (Source.within depth) := by
  induction depth with
  | zero => exact tracks_fail _
  | succ depth ih =>
      exact tracks_bind (tracks_aliasable ih) fun first =>
        tracks_bounded fun rounds => tracks_joins (tracks_aliasable ih) rounds first

end Nesting

theorem tracks_source :
    Tracks place (Source.moved place) Source.production Source.production :=
  tracks_bounded fun depth => tracks_plain (tracks_within depth)

theorem tracks_value :
    Tracks place (Value.moved place) Value.production Value.production := by
  apply tracks_choose
  intro t
  have hkind : (t.moved place).kind = t.kind := rfl
  unfold Value.after?
  rw [hkind]
  split
  · exact .some (tracks_pure (Value.text (.ofToken t)))
  · exact .some (tracks_pure (Value.number (.ofToken t)))
  · exact .some (tracks_pure (Value.number (.ofToken t)))
  · exact .some (tracks_pure (Value.truth (.ofToken t)))
  · exact .some (tracks_pure (Value.expression (.ofToken t)))
  · exact .some (tracks_bind (tracks_name _) fun name => tracks_pure (Value.reference t name))
  · exact .none

theorem tracks_default? :
    Tracks place (Option.map (Value.moved place)) Statement.default? Statement.default? := by
  apply tracks_bind (tracks_accept? _)
  intro found
  cases found with
  | none => exact tracks_pure none
  | some _ => exact tracks_bind tracks_value fun value => tracks_pure (some value)

theorem tracks_afterAt (token : Token) :
    Tracks place (Statement.moved place) (Statement.afterAt token)
      (Statement.afterAt (token.moved place)) := by
  apply tracks_bind (tracks_name _)
  intro name
  apply tracks_bind (tracks_accept? _)
  intro found
  cases found with
  | none =>
      exact tracks_bind (tracks_take _ _) fun _ => tracks_bind tracks_value fun value =>
        tracks_pure (Statement.setVariable token name value)
  | some _ =>
      exact tracks_bind (tracks_name _) fun typeName => tracks_bind (tracks_take _ _) fun _ =>
        tracks_bind tracks_value fun value =>
          tracks_pure (Statement.defineVariable ⟨token, name, typeName⟩ value)

theorem tracks_body? (t : Token) :
    Option.Rel (Tracks place (Statement.moved place)) (Statement.body? t)
      (Statement.body? (t.moved place)) := by
  have hkind : (t.moved place).kind = t.kind := rfl
  unfold Statement.body?
  rw [hkind]
  split
  · exact .some (tracks_bind (tracks_take _ _) fun _ => tracks_bind tracks_source fun source =>
      tracks_pure (Statement.assign (.ofToken t) source))
  · exact .some (tracks_bind tracks_source fun source => tracks_bind (tracks_take _ _) fun _ =>
      tracks_bind (tracks_text _) fun path => tracks_pure (Statement.output t source path))
  · exact .some (tracks_afterAt t)
  · exact .some (tracks_bind (tracks_take _ _) fun sign => tracks_bind (tracks_name _) fun name =>
      tracks_bind (tracks_take _ _) fun _ => tracks_bind (tracks_name _) fun typeName =>
        tracks_bind tracks_default? fun value? =>
          tracks_pure (Statement.param t ⟨sign, name, typeName⟩ value?))
  · exact .some (tracks_bind (tracks_name _) fun name => tracks_bind (tracks_take _ _) fun _ =>
      tracks_bind (tracks_text _) fun path => tracks_pure (Statement.importName t name path))
  · exact .some (tracks_bind (tracks_name _) fun name =>
      tracks_pure (Statement.exportName t name))
  · exact .none

theorem tracks_closed {p q : Production Statement} (h : Tracks place (Statement.moved place) p q) :
    Tracks place (Statement.moved place) (Statement.closed p) (Statement.closed q) :=
  tracks_bind h fun statement => tracks_bind (tracks_take _ _) fun _ => tracks_pure statement

end Production

/-! ## Scripts -/

/-- What a round found, moved. -/
def movedOutcome : Except ParseError Statement → Except ParseError Statement
  | .ok statement => .ok (statement.moved place)
  | .error e => .error (e.moved place)

/-- What reading gave, moved. -/
def Parsed.moved (parsed : Parsed) : Parsed :=
  ⟨parsed.script.moved place, parsed.errors.map (ParseError.moved place)⟩

namespace Script

theorem beginsStatement_moved (ts : List Token) :
    beginsStatement (ts.map (Token.moved place)) = beginsStatement ts := by
  cases ts with
  | nil => rfl
  | cons t rest =>
      cases rest with
      | nil => rfl
      | cons next rest => rfl

theorem recover_moved (ts : List Token) :
    recover (ts.map (Token.moved place)) = (recover ts).map (Token.moved place) := by
  induction ts with
  | nil => rfl
  | cons t rest ih =>
      have hkind : (t.moved place).kind = t.kind := rfl
      have hbegins := beginsStatement_moved place (t :: rest)
      rw [List.map_cons] at hbegins ⊢
      rw [recover, recover, hbegins, hkind, ih]
      split
      · rfl
      · split
        · rfl
        · rfl

theorem recoverFrom_moved (t : Token) (rest : List Token) :
    recoverFrom (t.moved place) (rest.map (Token.moved place)) =
      (recoverFrom t rest).map (Token.moved place) := by
  have hkind : (t.moved place).kind = t.kind := rfl
  rw [recoverFrom, recoverFrom, hkind, recover_moved]
  split
  · rfl
  · rfl

theorem headD_moved (ts : List Token) (final : Token) :
    (ts.map (Token.moved place)).headD (final.moved place) = (ts.headD final).moved place := by
  cases ts <;> rfl

/-- A round on moved tokens does the same, moved. -/
theorem round_moved (final t : Token) (rest : List Token) :
    round (final.moved place) (t.moved place) (rest.map (Token.moved place)) =
      (movedOutcome place (round final t rest).1,
        (round final t rest).2.map (Token.moved place)) := by
  have hbody : Option.Rel (Production.Tracks place (Statement.moved place)) _ _ :=
    Production.tracks_body? t
  unfold round
  generalize Statement.body? t = first at hbody
  generalize Statement.body? (t.moved place) = second at hbody
  cases hbody with
  | none =>
      simp only [recoverFrom_moved, movedOutcome, ParseError.moved]
      rfl
  | @some body moved htracks =>
      have hrun := Production.tracks_closed htracks rest
      simp only [hrun]
      cases Statement.closed body rest with
      | ok statement behind => rfl
      | error what behind =>
          simp only [Production.movedResult, recover_moved, headD_moved]
          rfl

theorem readStatements_moved (final : Token) (ts : List Token) :
    readStatements (final.moved place) (ts.map (Token.moved place)) =
      ((readStatements final ts).1.map (Statement.moved place),
        (readStatements final ts).2.map (ParseError.moved place)) := by
  induction ts using rounds_induction final with
  | nil =>
      rw [List.map_nil, readStatements, readStatements]
      rfl
  | ok t rest statement behind hround ih =>
      have hmoved := round_moved place final t rest
      rw [hround] at hmoved
      rw [List.map_cons, readStatements_of_ok hmoved, readStatements_of_ok hround, ih]
      rfl
  | error t rest e behind hround ih =>
      have hmoved := round_moved place final t rest
      rw [hround] at hmoved
      rw [List.map_cons, readStatements_of_error hmoved, readStatements_of_error hround, ih]
      rfl

theorem finalToken_moved {ts : List Token} (h : ∃ t ∈ ts, isFinal t) :
    finalToken (ts.map (Token.moved place)) = (finalToken ts).moved place := by
  have hfind : (ts.map (Token.moved place)).find? isFinal =
      (ts.find? isFinal).map (Token.moved place) := List.find?_map
  obtain ⟨final, hfinal⟩ := Option.isSome_iff_exists.mp (List.find?_isSome.mpr h)
  rw [finalToken, finalToken, hfind, hfinal]
  rfl

end Script

/-- Reading moved tokens gives what reading the tokens gives, moved. -/
theorem parse_moved {ts : List Token} (h : ∃ t ∈ ts, Script.isFinal t) :
    parse (ts.map (Token.moved place)) = (parse ts).moved place := by
  have hbody : (ts.map (Token.moved place)).takeWhile (fun t => !Script.isFinal t) =
      (ts.takeWhile fun t => !Script.isFinal t).map (Token.moved place) := List.takeWhile_map
  simp only [parse, Script.finalToken_moved place h, hbody, Script.headD_moved,
    Script.readStatements_moved]
  rfl

/-- The move that takes everything to the beginning of the text, so that no place is told. -/
def noPlace : Position → Position := fun _ => .start

theorem map_moved_noPlace (ts : List Token) :
    ts.map (Token.moved noPlace) =
      (ts.map Token.classified).map fun c => ⟨c.kind, c.value, .start⟩ := by
  rw [List.map_map]
  rfl

/-- Lists of tokens that differ in places alone are read as scripts and errors that differ in places
alone. -/
theorem parse_of_classified {ts us : List Token}
    (h : us.map Token.classified = ts.map Token.classified)
    (hts : ∃ t ∈ ts, Script.isFinal t) (hus : ∃ t ∈ us, Script.isFinal t) :
    (parse us).moved noPlace = (parse ts).moved noPlace := by
  rw [← parse_moved noPlace hus, ← parse_moved noPlace hts, map_moved_noPlace, map_moved_noPlace, h]

end RecordFlow
