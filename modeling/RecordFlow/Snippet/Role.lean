/-
# The snippets that rendering needs

Rendering asks for a fixed set of snippets, one for each construct of a script. A role says which;
its name is what a set of snippets is asked for. Each role has a template of its own in the set that
comes with the program, which targets a streaming library.
-/

namespace RecordFlow

/-- What a snippet is used for. -/
inductive Role
  | script
  | assignment
  | fileSource
  | selectQuery
  | fieldList
  | star
  | output
  | whereStatement
  | joinQuery
  | joinCondition
  | aliasedSource
  | namedField
  | unnamedField
  | renamedField
  | param
  | paramWithDefault
  | variableDefinition
  | variableAssignment
  | importName
  | exportName
deriving DecidableEq, Repr

namespace Role

/-- Every role, in the order in which a missing snippet is reported. -/
def all : List Role :=
  [script, assignment, fileSource, selectQuery, fieldList, star, output, whereStatement, joinQuery,
    joinCondition, aliasedSource, namedField, unnamedField, renamedField, param, paramWithDefault,
    variableDefinition, variableAssignment, importName, exportName]

/-- The name of the snippet. -/
def name : Role → String
  | script => "script"
  | assignment => "assignment"
  | fileSource => "fileSource"
  | selectQuery => "selectQuery"
  | fieldList => "fieldList"
  | star => "star"
  | output => "output"
  | whereStatement => "whereStatement"
  | joinQuery => "joinQuery"
  | joinCondition => "joinCondition"
  | aliasedSource => "aliasedSource"
  | namedField => "namedField"
  | unnamedField => "unnamedField"
  | renamedField => "renamedField"
  | param => "param"
  | paramWithDefault => "paramWithDefault"
  | variableDefinition => "variableDefinition"
  | variableAssignment => "variableAssignment"
  | importName => "import"
  | exportName => "export"

/-- The template that comes with the program. -/
def template : Role → String
  | script =>
      "// Generated by sift. Changes are overwritten on the next compile.\n"
        ++ "import * as sift from \"sift-runtime\";\n\n"
        ++ "/*%conditions%*/\n\n/*%statements%*/\n"
  | assignment => "// __name__\nconst __variableName__ = /*%source%*/;"
  | fileSource => "sift.extract(/*%filename%*/, /*%fieldSpec%*/)"
  | selectQuery => "sift.select(/*%source%*/, /*%fields%*/, /*%where%*/)"
  | fieldList => "sift.fields([/*%fields%*/], /*%position%*/)"
  | star => "sift.allFields()"
  | output => "const __variableName__ = sift.output(/*%source%*/, /*%fileName%*/);"
  | whereStatement => "(record: sift.Record): boolean => Boolean(/*%condition%*/)"
  | joinQuery =>
      "sift.join(sift.JoinType./*%joinType%*/, /*%left%*/, /*%right%*/, /*%condition%*/)"
  | joinCondition =>
      "function __name__(__left__: sift.Record, __right__: sift.Record): boolean \x7b\n"
        ++ "    return Boolean(/*%condition%*/);\n\x7d"
  | aliasedSource => "sift.namespace(/*%source%*/, /*%alias%*/)"
  | namedField => "sift.computed(/*%name%*/, (record: sift.Record) => (/*%value%*/))"
  | unnamedField => "sift.computed(null, (record: sift.Record) => (/*%value%*/))"
  | renamedField => "sift.rename(/*%field%*/, /*%name%*/)"
  | param => "const __name__ = sift.param<__type__>(\"__name__\");"
  | paramWithDefault => "const __name__ = sift.param<__type__>(\"__name__\", /*%default%*/);"
  | variableDefinition => "let __name__: __type__ = /*%value%*/;"
  | variableAssignment => "__name__ = /*%value%*/;"
  | importName => "import \x7b __name__ as __variableName__ \x7d from /*%fileName%*/;"
  | exportName => "export \x7b __variableName__ as __name__ \x7d;"

end Role

end RecordFlow
