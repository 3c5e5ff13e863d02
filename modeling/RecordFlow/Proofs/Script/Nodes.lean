/-
# The nodes of a script

A script is made of nodes of many types, each with its token and the nodes right below it. Here the
types are put side by side, so that a statement about a script can speak of all of its nodes. The
types leave open at which token a node stands and whether a literal has the payload of its token. In
the script that is read from a text, every node stands at a token of the text, of the kind that goes
with the node, and every name and every literal is what its token carries.

That a node is well formed passes from a node to the ones below it, and so does any property of its
tokens. What remains is a look at one node at a time.
-/

import RecordFlow.Proofs.Render.Blame
import RecordFlow.Proofs.Script.WellFormed
import RecordFlow.Proofs.Token.Partition

namespace RecordFlow

/-- A node of a script, of whichever type. -/
inductive Node
  | statement (statement : Statement)
  | typedName (typed : TypedName)
  | value (value : Value)
  | source (source : Source)
  | filter (filter : Filter)
  | fields (choice : Fields)
  | field (field : Field)
  | fieldValue (value : FieldValue)
  | name (name : Name)
  | text (literal : TextLiteral)
  | number (literal : NumberLiteral)
  | truth (literal : TruthLiteral)
  | expression (expression : Expression)

namespace Node

/-- The token a node stands at. -/
def token : Node → Token
  | statement st => st.token
  | typedName typed => typed.token
  | value v => v.token
  | source s => s.token
  | filter f => f.token
  | fields choice => choice.token
  | field f => f.token
  | fieldValue v => v.token
  | name n => n.token
  | text literal => literal.token
  | number literal => literal.token
  | truth literal => literal.token
  | expression e => e.token

/-- The nodes right below a node. -/
def children : Node → List Node
  | statement (.assign n s) => [name n, source s]
  | statement (.output _ s path) => [source s, text path]
  | statement (.param _ typed default?) => typedName typed :: default?.toList.map value
  | statement (.importName _ n path) => [name n, text path]
  | statement (.exportName _ n) => [name n]
  | statement (.setVariable _ n v) => [name n, value v]
  | statement (.defineVariable typed v) => [typedName typed, value v]
  | typedName typed => [name typed.name, name typed.typeName]
  | value (.text literal) => [text literal]
  | value (.number literal) => [number literal]
  | value (.truth literal) => [truth literal]
  | value (.reference _ n) => [name n]
  | value (.expression e) => [expression e]
  | source (.file _ choice path) => [fields choice, text path]
  | source (.named n) => [name n]
  | source (.select _ choice s filter?) =>
      fields choice :: source s :: filter?.toList.map filter
  | source (.aliased _ s n) => [source s, name n]
  | source (.join _ left right condition) => [source left, source right, expression condition]
  | filter f => [expression f.condition]
  | fields (.star _) => []
  | fields (.list first rest) => (first :: rest).map field
  | field f => fieldValue f.value :: f.alias?.toList.map fun announced => name announced.name
  | fieldValue (.input space? n) => space?.toList.map name ++ [name n]
  | fieldValue (.text literal) => [text literal]
  | fieldValue (.number literal) => [number literal]
  | fieldValue (.truth literal) => [truth literal]
  | fieldValue (.expression e) => [expression e]
  | name _ | text _ | number _ | truth _ | expression _ => []

end Node

/-- The nodes of a script are its statements and the nodes below them. -/
inductive Script.HasNode (script : Script) : Node → Prop
  | statement {st : Statement} (h : st ∈ script.statements) : HasNode script (.statement st)
  | child {parent child : Node} (h : HasNode script parent) (hchild : child ∈ parent.children) :
      HasNode script child

/-- The kinds of token at which the value of a field may stand. -/
def FieldValue.kinds : FieldValue → List TokenKind
  | input _ _ => [.identifier]
  | text _ => [.string]
  | number _ => [.integer, .decimal]
  | truth _ => [.boolean]
  | expression _ => [.expression]

namespace Node

/-- The kinds of token at which a node may stand. -/
def kinds : Node → List TokenKind
  | statement (.assign _ _) => [.identifier]
  | statement (.output _ _ _) => [.keyword .OUTPUT]
  | statement (.param _ _ _) => [.keyword .PARAM]
  | statement (.importName _ _ _) => [.keyword .IMPORT]
  | statement (.exportName _ _) => [.keyword .EXPORT]
  | statement (.setVariable _ _ _) => [.punctuation .atSign]
  | statement (.defineVariable _ _) => [.punctuation .atSign]
  | typedName _ => [.punctuation .atSign]
  | value (.text _) => [.string]
  | value (.number _) => [.integer, .decimal]
  | value (.truth _) => [.boolean]
  | value (.reference _ _) => [.punctuation .atSign]
  | value (.expression _) => [.expression]
  | source (.file _ _ _) => [.keyword .EXTRACT]
  | source (.named _) => [.identifier]
  | source (.select _ _ _ _) => [.keyword .SELECT]
  | source (.aliased _ _ _) => [.keyword .AS]
  | source (.join _ _ _ _) =>
      [.keyword .INNER, .keyword .LEFT, .keyword .RIGHT, .keyword .OUTER]
  | filter _ => [.keyword .WHERE]
  | fields (.star _) => [.punctuation .star]
  | fields (.list first _) => first.value.kinds
  | field ⟨_, some _⟩ => [.keyword .AS]
  | field ⟨v, none⟩ => v.kinds
  | fieldValue v => v.kinds
  | name _ => [.identifier]
  | text _ => [.string]
  | number _ => [.integer, .decimal]
  | truth _ => [.boolean]
  | expression _ => [.expression]

/-- A node that says what its token carries. A name is moreover a word, and not a reserved one. -/
def Says : Node → Prop
  | name n =>
      n.token.value = some (.text n.text) ∧ Scan.IsWord n.text.toList ∧
        TokenKind.ofWord? n.text = none
  | text literal => literal.token.value = some (.text literal.value)
  | number literal => literal.token.value = some (.number literal.value)
  | truth literal => literal.token.value = some (.truth literal.value)
  | expression e => e.token.value = some (.text e.code)
  | _ => True

/-- Whether a node is a field with an alias. -/
def isRenamed : Node → Bool
  | field f => f.alias?.isSome
  | _ => false

/-- A list of fields has a first one and stands where that one begins, and what has an alias is not
itself a field with an alias. -/
def Shaped (node : Node) : Prop :=
  (∀ first rest, node = fields (.list first rest) →
    ∃ f, node.children.head? = some (field f) ∧ f.tokens.head? = some node.token) ∧
  (node.isRenamed → ∀ child ∈ node.children, ¬child.isRenamed)

/-! ## From a node to the nodes below it -/

/-- A node all of whose parts are well formed. -/
def WellFormed : Node → Prop
  | statement st => st.WellFormed
  | typedName typed => typed.WellFormed
  | value v => v.WellFormed
  | source s => s.WellFormed
  | filter f => f.WellFormed
  | fields choice => choice.WellFormed
  | field f => f.WellFormed
  | fieldValue v => v.WellFormed
  | name n => n.WellFormed
  | text literal => literal.WellFormed
  | number literal => literal.WellFormed
  | truth literal => literal.WellFormed
  | expression e => e.WellFormed

/-- The tokens of a node and of those below it. -/
def tokens : Node → List Token
  | statement st => st.tokens
  | typedName typed => typed.tokens
  | value v => v.tokens
  | source s => s.tokens
  | filter f => f.tokens
  | fields choice => choice.tokens
  | field f => f.tokens
  | fieldValue v => v.tokens
  | name n => [n.token]
  | text literal => [literal.token]
  | number literal => [literal.token]
  | truth literal => [literal.token]
  | expression e => [e.token]

theorem wellFormed_of_mem_children {node : Node} (h : node.WellFormed) :
    ∀ child ∈ node.children, child.WellFormed := by
  cases node with
  | statement st =>
      cases st <;> simp_all [children, WellFormed, Statement.WellFormed]
  | typedName typed => simp_all [children, WellFormed, TypedName.WellFormed]
  | value v => cases v <;> simp_all [children, WellFormed, Value.WellFormed]
  | source s => cases s <;> simp_all [children, WellFormed, Source.WellFormed]
  | filter f => simp_all [children, WellFormed, Filter.WellFormed]
  | fields choice => cases choice <;> simp_all [children, WellFormed, Fields.WellFormed]
  | field f => simp_all [children, WellFormed, Field.WellFormed]
  | fieldValue v =>
      cases v with
      | input space? n => cases space? <;> simp_all [children, WellFormed, FieldValue.WellFormed]
      | _ => simp_all [children, WellFormed, FieldValue.WellFormed]
  | _ => exact List.forall_mem_nil _

theorem tokens_of_mem_children {P : Token → Prop} {node : Node} (h : ∀ t ∈ node.tokens, P t) :
    ∀ child ∈ node.children, ∀ t ∈ child.tokens, P t := by
  cases node with
  | statement st =>
      cases st <;> simp_all [children, tokens, Statement.tokens, or_imp, forall_and]
  | typedName typed => simp_all [children, tokens, TypedName.tokens]
  | value v => cases v <;> simp_all [children, tokens, Value.tokens]
  | source s => cases s <;> simp_all [children, tokens, Source.tokens, or_imp, forall_and]
  | filter f => simp_all [children, tokens, Filter.tokens]
  | fields choice =>
      cases choice with
      | star token => exact List.forall_mem_nil _
      | list first rest =>
          obtain ⟨hfirst, hrest⟩ := List.forall_mem_append.mp h
          exact List.forall_mem_map.mpr (List.forall_mem_cons.mpr
            ⟨hfirst, fun f hf t ht => hrest t (List.mem_flatMap_of_mem hf ht)⟩)
  | field f =>
      obtain ⟨v, _ | announced⟩ := f <;>
        simp_all [children, tokens, Field.tokens, or_imp, forall_and]
  | fieldValue v =>
      cases v with
      | input space? n => cases space? <;> simp_all [children, tokens, FieldValue.tokens]
      | _ => simp_all [children, tokens, FieldValue.tokens]
  | _ => exact List.forall_mem_nil _

end Node

namespace Script.HasNode

variable {script : Script} {node : Node}

theorem wellFormed (h : script.HasNode node) (hscript : script.WellFormed) : node.WellFormed := by
  induction h with
  | statement hst => exact hscript _ hst
  | child _ hchild ih => exact Node.wellFormed_of_mem_children ih _ hchild

theorem tokens {P : Token → Prop} (h : script.HasNode node)
    (hscript : ∀ st ∈ script.statements, ∀ t ∈ st.tokens, P t) : ∀ t ∈ node.tokens, P t := by
  induction h with
  | statement hst => exact hscript _ hst
  | child _ hchild ih => exact Node.tokens_of_mem_children ih _ hchild

end Script.HasNode

theorem NumberLiteral.kind_mem_of_wellFormed {literal : NumberLiteral} (h : literal.WellFormed) :
    literal.token.kind ∈ [.integer, .decimal] := by
  simpa using h.1

theorem FieldValue.kind_mem_kinds {v : FieldValue} (h : v.WellFormed) :
    v.token.kind ∈ v.kinds := by
  cases v with
  | input space? n =>
      cases space? with
      | none => exact List.mem_singleton.mpr h.1
      | some space => exact List.mem_singleton.mpr h.1.1
  | number literal => exact NumberLiteral.kind_mem_of_wellFormed h
  | _ => exact List.mem_singleton.mpr h.1

theorem FieldValue.head?_tokens (v : FieldValue) : v.tokens.head? = some v.token := by
  cases v with
  | input space? n => cases space? <;> rfl
  | _ => rfl

theorem Field.head?_tokens (f : Field) : f.tokens.head? = some f.value.token := by
  obtain ⟨v, _ | announced⟩ := f
  · exact v.head?_tokens
  · simp [tokens, v.head?_tokens]

namespace Node

variable {node : Node}

theorem token_mem_tokens (node : Node) : node.token ∈ node.tokens := by
  cases node with
  | statement st => cases st <;> exact List.mem_cons_self
  | value v => cases v <;> exact List.mem_cons_self
  | source s => cases s <;> exact List.mem_cons_self
  | fields choice =>
      cases choice with
      | star token => exact List.mem_cons_self
      | list first rest =>
          exact List.mem_append_left _ (List.mem_of_head? first.head?_tokens)
  | field f =>
      obtain ⟨v, _ | announced⟩ := f
      · exact v.token_mem_tokens
      · exact List.mem_append_right _ List.mem_cons_self
  | fieldValue v => exact v.token_mem_tokens
  | _ => exact List.mem_cons_self

theorem kind_mem_kinds (h : node.WellFormed) : node.token.kind ∈ node.kinds := by
  cases node with
  | statement st =>
      cases st with
      | assign n s => exact List.mem_singleton.mpr h.1.1
      | defineVariable typed v => exact List.mem_singleton.mpr h.1.1
      | _ => exact List.mem_singleton.mpr h.1
  | value v =>
      cases v with
      | number literal => exact NumberLiteral.kind_mem_of_wellFormed h
      | _ => exact List.mem_singleton.mpr h.1
  | source s =>
      cases s with
      | join token left right condition => exact Source.mem_joinWords_of_isJoinOperator h.1
      | _ => exact List.mem_singleton.mpr h.1
  | fields choice =>
      cases choice with
      | star token => exact List.mem_singleton.mpr h
      | list first rest => exact FieldValue.kind_mem_kinds h.1.1
  | field f =>
      obtain ⟨v, _ | announced⟩ := f
      · exact FieldValue.kind_mem_kinds h.1
      · exact List.mem_singleton.mpr (h.2 announced rfl).1
  | fieldValue v => exact FieldValue.kind_mem_kinds h
  | number literal => exact NumberLiteral.kind_mem_of_wellFormed h
  | _ => exact List.mem_singleton.mpr h.1

/-- The types leave no other shape. -/
theorem shaped (node : Node) : node.Shaped := by
  constructor
  · rintro first rest rfl
    exact ⟨first, rfl, first.head?_tokens⟩
  · intro hrenamed
    cases node with
    | field f => simp [children, isRenamed]
    | _ => exact nomatch hrenamed

end Node

/-- A token that carries what its kind calls for: a name is a word that is not reserved, and every
literal has a payload of its own type. -/
structure Token.Paired (t : Token) : Prop where
  word : t.kind = .identifier → ∃ word, t.value = some (.text word) ∧ Scan.IsWord word.toList ∧
    TokenKind.ofWord? word = none
  text : t.kind = .string ∨ t.kind = .expression → ∃ text, t.value = some (.text text)
  number : t.kind = .integer ∨ t.kind = .decimal → ∃ number, t.value = some (.number number)
  truth : t.kind = .boolean → ∃ truth, t.value = some (.truth truth)

theorem paired_of_tokenize {source : String} {ts : List Token} (h : tokenize source = .ok ts) :
    ∀ t ∈ ts, t.Paired := by
  intro t ht
  obtain ⟨kind, value, position⟩ := t
  rcases Scan.spelled_of_tokenize h _ ht with ⟨lexeme, hspells⟩ | hend
  · cases hspells with
    | name hword hfree => constructor <;> simp [hword, hfree]
    | _ => constructor <;> simp
  · cases hend
    constructor <;> simp

/-- At a token that carries what its kind calls for, a name or a literal says just that. -/
theorem Node.says_of_wellFormed {node : Node} (h : node.WellFormed) (ht : node.token.Paired) :
    node.Says := by
  cases node with
  | name n =>
      obtain ⟨hkind, hname⟩ := h
      obtain ⟨word, hvalue, hword, hfree⟩ := ht.word hkind
      have htext : n.text = word := by
        rw [hname]
        simp [Name.ofToken, Token.text?, show n.token.value = _ from hvalue]
      rw [Says, htext]
      exact ⟨hvalue, hword, hfree⟩
  | text literal =>
      obtain ⟨hkind, hliteral⟩ := h
      obtain ⟨text, hvalue⟩ := ht.text (.inl hkind)
      rw [Says, hliteral]
      simp [TextLiteral.ofToken, Token.text?, show literal.token.value = _ from hvalue]
  | number literal =>
      obtain ⟨hkind, hliteral⟩ := h
      obtain ⟨number, hvalue⟩ := ht.number hkind
      rw [Says, hliteral]
      simp [NumberLiteral.ofToken, Token.number?, show literal.token.value = _ from hvalue]
  | truth literal =>
      obtain ⟨hkind, hliteral⟩ := h
      obtain ⟨truth, hvalue⟩ := ht.truth hkind
      rw [Says, hliteral]
      simp [TruthLiteral.ofToken, Token.truth?, show literal.token.value = _ from hvalue]
  | expression e =>
      obtain ⟨hkind, he⟩ := h
      obtain ⟨code, hvalue⟩ := ht.text (.inr hkind)
      rw [Says, he]
      simp [Expression.ofToken, Token.text?, show e.token.value = _ from hvalue]
  | _ => trivial

end RecordFlow
