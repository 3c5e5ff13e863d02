/-
# Arguments

The words of a command line are options, operands and the separator `--`, behind which every word is
an operand. An option has its value in the next word, or in its own word behind an equals sign; the
value of a short option may follow its letter at once. A value in a word of its own may not begin
with a hyphen, but may be a single one. No option is given twice at one level. The option for the
settings file may stand before and behind the name of the command, and the one behind counts.
-/

import RecordFlow.Command.Basic

namespace RecordFlow.Arguments

/-- The options, all of which have a value. -/
inductive Flag
  | config
  | output
  | snippets
  | format
deriving DecidableEq, Repr

namespace Flag

/-- The long name of an option. -/
def name : Flag → String
  | config => "config"
  | output => "output"
  | snippets => "snippets"
  | format => "format"

/-- The letter of an option. -/
def letter? : Flag → Option Char
  | output => some 'o'
  | _ => none

end Flag

/-- The layout of a name. -/
def formatOfName? : String → Option Report.Format
  | "text" => some .text
  | "json" => some .json
  | _ => none

/-- Whether an option may have a value. Paths are not empty. -/
def Flag.accepts : Flag → String → Bool
  | format, value => (formatOfName? value).isSome
  | _, value => !value.isEmpty

/-- A word of the command line. -/
inductive Word
  | separator
  | long (name : String) (value? : Option String)
  | short (letter : Char) (value? : Option String)
  | operand (text : String)
deriving DecidableEq, Repr

/-- The value behind the letter of a short option. -/
def attached? : List Char → Option String
  | [] => none
  | '=' :: rest => some (String.ofList rest)
  | rest => some (String.ofList rest)

/-- The kind of a word. -/
def Word.ofText (text : String) : Word :=
  match text.toList with
  | ['-', '-'] => separator
  | '-' :: '-' :: rest =>
      let name := String.ofList (rest.takeWhile (· != '='))
      match rest.dropWhile (· != '=') with
      | _ :: value => long name (some (String.ofList value))
      | [] => long name none
  | '-' :: letter :: rest => short letter (attached? rest)
  | _ => operand text

/-- Why words give no command. -/
inductive Refusal
  /-- They ask for the usage. -/
  | usage
  /-- They ask for the version. -/
  | version
  /-- They cannot be understood. -/
  | invalid
deriving DecidableEq, Repr

/-- What the operand of a command is. -/
inductive Slot
  | none
  | path
  | name
deriving DecidableEq, Repr

/-- Whether a command may have an operand. -/
def Slot.accepts : Slot → String → Bool
  | none, _ => false
  | path, text => !text.isEmpty
  | name, _ => true

/-- The options and the operand that were given. -/
structure Given where
  flags : List (Flag × String) := []
  operand? : Option String := Option.none

namespace Given

/-- The value of an option. -/
def value? (g : Given) (flag : Flag) : Option String := List.lookup flag g.flags

/-- Give an option its value. -/
def setFlag (g : Given) (flag : Flag) (value : String) : Except Refusal Given :=
  if (g.value? flag).isSome || !flag.accepts value then .error .invalid
  else .ok { g with flags := (flag, value) :: g.flags }

/-- Give the operand. There is at most one. -/
def setOperand (slot : Slot) (g : Given) (text : String) : Except Refusal Given :=
  if g.operand?.isSome || !slot.accepts text then .error .invalid
  else .ok { g with operand? := some text }

end Given

/-- What an option word asks for: an option with the value in the same word, if it is there, or
something other than a command. -/
def option (allowed : List Flag) : Word → Except Refusal (Flag × Option String)
  | .long name value? =>
      if name = "help" ∧ value? = none then .error .usage
      else
        match allowed.find? (·.name == name) with
        | some flag => .ok (flag, value?)
        | none => .error .invalid
  | .short letter value? =>
      if letter = 'h' then .error .usage
      else
        match allowed.find? (·.letter? == some letter) with
        | some flag => .ok (flag, value?)
        | none => .error .invalid
  | _ => .error .invalid

/-- Whether a word can be the value of the option before it. -/
def isValue (text : String) : Bool :=
  match Word.ofText text with
  | .operand _ => true
  | _ => false

/-- Read the words behind the name of a command. -/
def gather (allowed : List Flag) (slot : Slot) (g : Given) : List String → Except Refusal Given
  | [] => .ok g
  | text :: rest =>
      match Word.ofText text with
      | .separator => rest.foldlM (Given.setOperand slot) g
      | .operand text => do
          let g ← g.setOperand slot text
          gather allowed slot g rest
      | word => do
          match ← option allowed word, rest with
          | (flag, some value), rest => do
              let g ← g.setFlag flag value
              gather allowed slot g rest
          | (flag, none), value :: rest => do
              if !isValue value then throw .invalid
              let g ← g.setFlag flag value
              gather allowed slot g rest
          | (_, none), [] => throw .invalid

/-- The layout that was asked for. -/
def Given.format (g : Given) : Report.Format :=
  ((g.value? .format).bind formatOfName?).getD .text

/-- The names that the usage can be asked for. -/
def topics : List String := ["compile", "check", "tokens", "repl", "docs", "doc", "help"]

/-- What asking for help about some words comes to. They have to be the name of one command. -/
def help : List String → Refusal
  | [] => .usage
  | [topic] => if topics.contains topic then .usage else .invalid
  | _ => .invalid

/-- Read the words of the command of a name. The result has the command and its settings file. -/
def command (name : String) (words : List String) : Except Refusal (Command × Option String) :=
  match name with
  | "compile" => do
      let g ← gather [.config, .output, .snippets, .format] .path {} words
      let options : CompileCommand :=
        ⟨g.operand?, g.value? .output, g.value? .snippets, g.format⟩
      return (.compile options, g.value? .config)
  | "check" => do
      let g ← gather [.config, .format] .path {} words
      return (.check g.operand? g.format, g.value? .config)
  | "tokens" => do
      let g ← gather [.config] .path {} words
      return (.tokens g.operand?, g.value? .config)
  | "repl" => do
      let g ← gather [.config] .none {} words
      return (.repl, g.value? .config)
  | "docs" => do
      let g ← gather [.config] .none {} words
      return (.docs, g.value? .config)
  | "doc" => do
      let g ← gather [.config] .name {} words
      match g.operand? with
      | some category => return (.doc category, g.value? .config)
      | none => throw .invalid
  | "help" => .error (help words)
  | _ => .error .invalid

/-- Read the words up to the name of the command, and the command. -/
def top (g : Given) : List String → Except Refusal Invocation
  | [] => .error .invalid
  | text :: rest =>
      match Word.ofText text with
      | .separator => .error .invalid
      | .operand name => do
          let (found, settings?) ← command name rest
          return ⟨settings?.or (g.value? .config), found⟩
      | .long "version" none => .error .version
      | .short 'V' _ => .error .version
      | word => do
          match ← option [.config] word, rest with
          | (flag, some value), rest => do
              let g ← g.setFlag flag value
              top g rest
          | (flag, none), value :: rest => do
              if !isValue value then throw .invalid
              let g ← g.setFlag flag value
              top g rest
          | (_, none), [] => throw .invalid

/-- Read a command line. -/
def parse (words : List String) : Except Refusal Invocation := top {} words

end RecordFlow.Arguments
