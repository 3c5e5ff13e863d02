/-
# Rendering scripts

Each node of a script fills the snippet of its role with the texts of the nodes below it. Fields and
values depend on nothing else. Sources also depend on the bindings made before, and joins leave the
function of their condition behind. A statement binds its name after its source is rendered, so a
source may refer to the binding that it is about to replace.
-/

import RecordFlow.Render.Context
import RecordFlow.Render.Error
import RecordFlow.Script.Join

namespace RecordFlow

namespace Render

/-- A text in quotes. Nothing in it is escaped: what a script has between quotes is kept. -/
def quote (raw : String) : String := "\"" ++ raw ++ "\""

/-- Fill the snippet of a role on behalf of the node at `token`. -/
def snippet (library : Library) (role : Role) (token : Token) (values : List (String × String)) :
    Except RenderError String :=
  match library.get role.name values with
  | .ok text => .ok text
  | .error cause => .error ⟨.snippet cause, token.position⟩

/-- The text of what a field takes its value from. -/
def fieldValue : FieldValue → String
  | .input space? name => quote (qualifiedName space? name)
  | .text literal => quote literal.value
  | .number literal => literal.value.text
  | .truth literal => truthWord literal.value
  | .expression e => e.code

/-- The text of a value of a variable. -/
def value : Value → String
  | .text literal => quote literal.value
  | .number literal => literal.value.text
  | .truth literal => truthWord literal.value
  | .reference _ name => name.text
  | .expression e => e.code

/-- Render a field of a list. An input field without an alias needs no snippet. -/
def field (library : Library) (f : Field) : Except RenderError String :=
  match f.alias?, f.value with
  | none, .input space? name => .ok (fieldValue (.input space? name))
  | none, computed =>
      snippet library .unnamedField computed.token [("value", fieldValue computed)]
  | some announced, .input space? name =>
      snippet library .renamedField announced.token
        [("field", fieldValue (.input space? name)), ("name", quote announced.name.text)]
  | some announced, computed =>
      snippet library .namedField announced.token
        [("name", quote announced.name.text), ("value", fieldValue computed)]

/-- Render a choice of fields. A list also tells where it stands. -/
def fields (library : Library) (choice : Fields) : Except RenderError String :=
  match choice with
  | .star token => snippet library .star token []
  | .list first rest => do
      let texts ← (first :: rest).mapM (field library)
      snippet library .fieldList choice.token
        [("fields", ", ".intercalate texts), ("position", quote choice.token.position.text)]

/-- Render a condition on records; without one the text is empty. -/
def filter (library : Library) : Option Filter → Except RenderError String
  | some f => snippet library .whereStatement f.token [("condition", f.condition.code)]
  | none => .ok ""

/-- Put a source under a namespace. -/
def namespaced (library : Library) (token : Token) (source : String) (name : Name) :
    Except RenderError String :=
  snippet library .aliasedSource token [("source", source), ("alias", quote name.text)]

/-- A side of a join. A name joins under itself as its namespace. -/
def side (library : Library) (source : Source) (rendered : String) : Except RenderError String :=
  match source with
  | .named name => namespaced library name.token rendered name
  | _ => .ok rendered

/-- The join that a token announces, or an error. -/
def joinType (token : Token) : Except RenderError JoinType :=
  match JoinType.ofKind? token.kind with
  | some joinType => .ok joinType
  | none => .error ⟨.unknownJoinType token.kind, token.position⟩

/-- Check that two sides of a join share no namespace. -/
def checkNamespaces (left right : Source) : Except RenderError Unit :=
  match left.sharedNamespace? right with
  | some name => .error ⟨.duplicateJoinName name.text, name.token.position⟩
  | none => .ok ()

/-- The function that holds a join condition. -/
def joinCondition (library : Library) (name : String) (left right : Source)
    (condition : Expression) : Except RenderError String :=
  snippet library .joinCondition condition.token
    [("name", name), ("left", left.parameter "left"), ("right", right.parameter "right"),
      ("condition", condition.code)]

end Render

/-- A computation that reads and extends the state of a rendering, and may stop it. -/
abbrev Rendering := StateT Context (Except RenderError)

namespace Render

/-- The variable that a name refers to. -/
def reference (name : Name) : Rendering String := fun context =>
  match context.resolve? name.text with
  | some generated => .ok (generated, context)
  | none => .error ⟨.unresolved name.text, name.token.position⟩

/-- Bind a name and give the variable. -/
def bind (name : Name) : Rendering String := fun context => .ok (context.bind name.text)

/-- Count an output and give its variable. -/
def nextOutput : Rendering String := fun context => .ok context.nextOutput

/-- Move a join condition to a function of its own, and give the function's name. -/
def hoist (library : Library) (left right : Source) (condition : Expression) :
    Rendering String := fun context => do
  let name := context.nextCondition
  let function ← joinCondition library name left right condition
  return (name, context.pushCondition function)

/-- Render a source. -/
def source (library : Library) : Source → Rendering String
  | .file token choice path => do
      let choice ← fields library choice
      snippet library .fileSource token [("fieldSpec", choice), ("filename", quote path.value)]
  | .named name => reference name
  | .select token choice inner filter? => do
      let inner ← source library inner
      let choice ← fields library choice
      let condition ← filter library filter?
      snippet library .selectQuery token
        [("fields", choice), ("source", inner), ("where", condition)]
  | .aliased token inner name => do
      let inner ← source library inner
      namespaced library token inner name
  | .join token left right condition => do
      let leftText ← source library left
      let leftText ← side library left leftText
      let rightText ← source library right
      let rightText ← side library right rightText
      let type ← joinType token
      checkNamespaces left right
      let name ← hoist library left right condition
      snippet library .joinQuery token
        [("left", leftText), ("right", rightText), ("condition", name), ("joinType", type.name)]

/-- Render a statement. -/
def statement (library : Library) : Statement → Rendering String
  | .assign name input => do
      let text ← source library input
      let generated ← bind name
      snippet library .assignment name.token
        [("variableName", generated), ("source", text), ("name", name.text)]
  | .output token input path => do
      let text ← source library input
      let generated ← nextOutput
      snippet library .output token
        [("variableName", generated), ("source", text), ("fileName", quote path.value)]
  | .param token typed none =>
      snippet library .param token [("name", typed.name.text), ("type", typed.typeName.text)]
  | .param token typed (some default) =>
      snippet library .paramWithDefault token
        [("name", typed.name.text), ("type", typed.typeName.text), ("default", value default)]
  | .importName token name path => do
      let generated ← bind name
      snippet library .importName token
        [("variableName", generated), ("name", name.text), ("fileName", quote path.value)]
  | .exportName token name => do
      let generated ← reference name
      snippet library .exportName token [("variableName", generated), ("name", name.text)]
  | .setVariable token name assigned =>
      snippet library .variableAssignment token
        [("name", name.text), ("value", value assigned)]
  | .defineVariable typed assigned =>
      snippet library .variableDefinition typed.token
        [("name", typed.name.text), ("type", typed.typeName.text), ("value", value assigned)]

/-- Render a script: its statements line by line, and the functions of its join conditions. -/
def script (library : Library) (s : Script) : Rendering String := do
  let texts ← s.statements.mapM (statement library)
  let context ← get
  snippet library .script s.token
    [("statements", "\n".intercalate texts), ("conditions", "\n\n".intercalate context.conditions)]

end Render

/-- Render a script with the snippets of a library. -/
def render (library : Library) (script : Script) : Except RenderError String :=
  (Render.script library script).run' .empty

end RecordFlow
