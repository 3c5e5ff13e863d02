/-
# The manual

The reference that the program prints: an overview, and one page for each part of the language. A
page is found under its name and under a few others, whatever the case of their letters.
-/

namespace RecordFlow.Manual

/-- A text of whole lines. -/
def lines (ls : List String) : String := String.join (ls.map (· ++ "\n"))

/-- The pages of the manual. -/
inductive Category
  | language
  | sources
  | fields
  | joins
  | parameters
  | snippets
deriving DecidableEq, Repr

/-- The page of a name. Only ASCII letters are folded to lower case: no other character has a letter
of one of these names as its lower case. -/
def Category.ofName? (name : String) : Option Category :=
  match name.map Char.toLower with
  | "syntax" => some language
  | "sources" | "source" => some sources
  | "fields" | "field" => some fields
  | "joins" | "join" => some joins
  | "variables" | "variable" | "params" => some parameters
  | "snippets" | "snippet" | "templates" => some snippets
  | _ => none

/-- The list of pages with a short reference. -/
def overview : String :=
  lines
    [ "SIFT DOCUMENTATION",
      "",
      "Sift compiles extract/select/join/output scripts into streaming pipeline code.",
      "A script is a list of statements ending in ';'. Sources are bound to names,",
      "refined with SELECT and JOIN, and written to files with OUTPUT.",
      "",
      "DOCUMENTATION CATEGORIES",
      "",
      "  syntax            Statements, comments, literals and embedded expressions",
      "  sources           EXTRACT, SELECT, names and aliases",
      "  fields            Field lists, namespaces, aliases and computed fields",
      "  joins             INNER, LEFT, RIGHT and OUTER joins",
      "  variables         PARAM declarations and @variables",
      "  snippets          Template placeholders used by the code generator",
      "",
      "QUICK REFERENCE",
      "",
      "  a = EXTRACT * FROM \"a.csv\";          Read a file",
      "  b = SELECT x, y FROM a;              Project fields",
      "  SELECT * FROM a WHERE \x7b\x7b x > 1 \x7d\x7d    Filter rows",
      "  a AS l INNER JOIN b AS r ON \x7b\x7b..\x7d\x7d   Join two sources",
      "  OUTPUT b TO \"b.csv\";                 Write a file",
      "",
      "Run 'sift doc <category>' for detailed documentation." ]

/-- Statements, literals and embedded expressions. -/
def languagePage : String :=
  lines
    [ "SYNTAX - Statements and Literals",
      "",
      "STATEMENTS",
      "  Every statement ends with ';'. Statements run in order, and a name must be",
      "  assigned before it is used.",
      "",
      "    name = <source>;",
      "    OUTPUT <source> TO \"file.csv\";",
      "    PARAM @name : type [= value];",
      "    @name : type = value;",
      "    @name = value;",
      "    IMPORT name FROM \"./module\";",
      "    EXPORT name;",
      "",
      "KEYWORDS",
      "  Keywords are upper case and case-sensitive: 'select' is a plain name.",
      "",
      "COMMENTS",
      "  // to the end of the line",
      "  /* across",
      "     lines */",
      "",
      "LITERALS",
      "  \"text\"            Strings keep their escapes as written",
      "  42  3.50          Numbers are exact decimals",
      "  true  false       Booleans",
      "",
      "EMBEDDED EXPRESSIONS",
      "  \x7b\x7b ... \x7d\x7d",
      "    Host-language code, copied to the output unchanged. Use a backslash to",
      "    escape a closing brace pair: \x7b\x7b \"\\\x7d\x7d\" \x7d\x7d.",
      "",
      "DIRECTIVES",
      "  #DECLARE #SET #IF #ELSE #END #WARN #ERROR are reserved. The parser reports",
      "  them as unsupported." ]

/-- Where records come from. -/
def sourcesPage : String :=
  lines
    [ "SOURCES - Where Records Come From",
      "",
      "EXTRACT",
      "  EXTRACT <fields> FROM \"file\"",
      "    Reads a CSV, TSV or JSON file.",
      "",
      "    Example:",
      "      people = EXTRACT name, age FROM \"people.csv\";",
      "",
      "SELECT",
      "  SELECT <fields> FROM <source> [WHERE \x7b\x7b condition \x7d\x7d]",
      "    Projects fields of another source and optionally filters rows.",
      "",
      "    Example:",
      "      adults = SELECT name FROM people WHERE \x7b\x7b age >= 18 \x7d\x7d;",
      "",
      "NAMES",
      "  A bare name refers to the latest assignment of that name. Assigning the",
      "  same name again shadows the earlier binding:",
      "",
      "      a = EXTRACT * FROM \"a.csv\";",
      "      a = SELECT * FROM a;        // reads the first 'a'",
      "",
      "ALIASES",
      "  <source> AS name",
      "    Names a source for join conditions and qualified fields.",
      "",
      "NESTING",
      "  ( <source> )",
      "    Parentheses group a nested select or join." ]

/-- How fields are chosen. -/
def fieldsPage : String :=
  lines
    [ "FIELDS - Choosing Columns",
      "",
      "ALL FIELDS",
      "  *",
      "",
      "FIELD LIST",
      "  field, other, ...",
      "    At least one field is required.",
      "",
      "QUALIFIED FIELDS",
      "  ns.field",
      "    Picks 'field' from the source aliased 'ns'.",
      "",
      "ALIASES",
      "  field AS new_name",
      "  \x7b\x7b price * 2 \x7d\x7d AS double_price",
      "",
      "COMPUTED AND CONSTANT FIELDS",
      "  \x7b\x7b expression \x7d\x7d, \"text\", 42, true",
      "    Literals and expressions are accepted anywhere a field is expected." ]

/-- How sources are combined. -/
def joinsPage : String :=
  lines
    [ "JOINS - Combining Sources",
      "",
      "  <left> INNER JOIN <right> ON \x7b\x7b condition \x7d\x7d",
      "  <left> LEFT JOIN <right> ON \x7b\x7b condition \x7d\x7d",
      "  <left> RIGHT JOIN <right> ON \x7b\x7b condition \x7d\x7d",
      "  <left> OUTER JOIN <right> ON \x7b\x7b condition \x7d\x7d",
      "",
      "  Both sides are read completely, then every pair of records is tested with",
      "  the condition. Each side is namespaced by its alias, or by its name when it",
      "  is a bare name, and the condition sees it under that namespace:",
      "",
      "    SELECT * FROM people AS p INNER JOIN orders AS o ON \x7b\x7b p.id == o.person \x7d\x7d",
      "",
      "  The two sides of one join must not share a namespace. Join a source with",
      "  itself through aliases:",
      "",
      "    SELECT * FROM a AS x INNER JOIN a AS y ON \x7b\x7b x.parent == y.id \x7d\x7d",
      "",
      "  A side that is itself a join exposes all of its namespaces.",
      "",
      "CHAINING",
      "  Joins group from the left:",
      "",
      "    SELECT * FROM a INNER JOIN b ON \x7b\x7b..\x7d\x7d LEFT JOIN c ON \x7b\x7b..\x7d\x7d",
      "",
      "  joins a with b first, then joins that result with c. The second condition",
      "  can use a, b and c." ]

/-- Parameters and variables. -/
def parametersPage : String :=
  lines
    [ "VARIABLES - Parameters and Values",
      "",
      "PARAMETERS",
      "  PARAM @limit : number;",
      "  PARAM @country : string = \"NL\";",
      "    Values supplied by the caller of the generated pipeline.",
      "",
      "DEFINITIONS",
      "  @threshold : number = 10;",
      "",
      "ASSIGNMENTS",
      "  @threshold = @limit;",
      "",
      "VALUES",
      "  Strings, numbers, booleans, \x7b\x7b expressions \x7d\x7d and other @variables." ]

/-- The templates that output is assembled from. -/
def snippetsPage : String :=
  lines
    [ "SNIPPETS - Code Generation Templates",
      "",
      "  Output is assembled from named templates. A template marks insertion points",
      "  with /*%key%*/ or __key__. Keys are letters and digits, optionally split by",
      "  single underscores. Supplying a key a template does not contain is an error.",
      "",
      "  Use a directory of templates with:",
      "",
      "    sift compile script.sift --snippets ./snippets",
      "",
      "  Files are named <snippet>.<extension>, for example joinQuery.ts.",
      "",
      "REQUIRED SNIPPETS",
      "  script, assignment, fileSource, selectQuery, fieldList, star, output,",
      "  whereStatement, joinQuery, joinCondition, aliasedSource, namedField,",
      "  unnamedField,",
      "  renamedField, param, paramWithDefault, variableDefinition,",
      "  variableAssignment, import, export" ]

/-- The text of a page. -/
def Category.text : Category → String
  | language => languagePage
  | sources => sourcesPage
  | fields => fieldsPage
  | joins => joinsPage
  | parameters => parametersPage
  | snippets => snippetsPage

/-- The text of the page of a name. -/
def page? (name : String) : Option String := (Category.ofName? name).map Category.text

/-- What is said about a name that has no page. -/
def unknownCategory (name : String) : String :=
  "Unknown category: '" ++ name ++ "'\nRun 'sift docs' to see available categories."

end RecordFlow.Manual
