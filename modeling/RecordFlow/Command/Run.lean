/-
# Running commands

A command runs with the files of its monad and with the bytes of the standard input, and its outcome
is a code, what it prints, and what it says about itself. Settings are read before anything else. A
script is compiled before anything is written, so a script that fails leaves all files alone.
-/

import RecordFlow.Command.Arguments
import RecordFlow.Manual
import RecordFlow.Session
import RecordFlow.Settings.File

namespace RecordFlow

/-- Why a command failed. -/
inductive CommandError
  /-- The script is wrong. -/
  | diagnostics (list : List Diagnostic)
  /-- There are no settings. -/
  | settings (cause : SettingsError)
  /-- A script could not be read, or a result could not be written. -/
  | file (cause : FileError)
  /-- The extension for results cannot be one. -/
  | extension (cause : ExtensionError)
  /-- No script was named and nobody feeds the standard input. -/
  | noInput
  /-- The manual has no such page. -/
  | unknownCategory (name : String)
deriving DecidableEq

namespace CommandError

/-- The wording of a failure, with diagnostics in a layout. -/
def messageAs (format : Report.Format) : CommandError → String
  | diagnostics list => Report.diagnosticsAs format list
  | settings cause => cause.message
  | file cause => "IO error: " ++ cause.message
  | extension cause => cause.message
  | noInput => "No input provided. Pass a script path or pipe a script to stdin."
  | unknownCategory name => Manual.unknownCategory name

/-- The wording of a failure. -/
def message (e : CommandError) : String := e.messageAs .text

/-- The code that a failure ends the program with. -/
def code : CommandError → Nat
  | extension _ => 101
  | _ => 1

end CommandError

/-- Where the result of compiling went. -/
inductive Delivery
  | printed (text : String)
  | written (path : String)
deriving DecidableEq, Repr

/-- A script with all that decides about its result. -/
structure CompileRequest where
  source : String
  scriptPath? : Option String := none
  output? : Option String := none
  snippetsDir? : Option String := none

/-- The outcome of a command. -/
structure Outcome where
  code : Nat
  output : String
  errors : String
deriving DecidableEq, Repr

namespace Outcome

/-- The outcome of a command that prints a text. -/
def printed (text : String) : Outcome := ⟨0, text, ""⟩

/-- The outcome of a command that fails. -/
def failed (format : Report.Format) (e : CommandError) : Outcome :=
  ⟨e.code, "", e.messageAs format ++ "\n"⟩

end Outcome

variable {m : Type → Type} [Monad m] [MonadFiles m]

namespace CompileRequest

/-- Where the result is to be written, if anywhere. The path that was asked for goes before the one
that the settings give. -/
def target? (r : CompileRequest) (settings : Settings) : Except ExtensionError (Option String) :=
  match r.output?, r.scriptPath? with
  | some path, _ => .ok (some path)
  | none, some script => settings.outputPath script
  | none, none => .ok none

/-- Compile a script and put the result where it belongs. -/
def execute (r : CompileRequest) (settings : Settings) : m (Except CommandError Delivery) := do
  let settings := (r.snippetsDir?.map settings.withSnippetsDir).getD settings
  let library ← settings.library
  match compile library r.source with
  | .error list => return .error (.diagnostics list)
  | .ok text =>
      match r.target? settings with
      | .error cause => return .error (.extension cause)
      | .ok none => return .ok (.printed text)
      | .ok (some path) =>
          match ← writeText path text with
          | .error cause => return .error (.file cause)
          | .ok () => return .ok (.written path)

end CompileRequest

namespace Command

/-- The text of the script that was named, or of the standard input. -/
def readSource (input? : Option (List UInt8)) (script? : Option String) :
    m (Except CommandError String) := do
  match scriptPath? script? with
  | some path =>
      let text ← readText path
      return text.mapError .file
  | none =>
      match input? with
      | some bytes => return (decodeText bytes).mapError .file
      | none => return .error .noInput

/-- The number of statements of a script, as it is reported. -/
def checked (source : String) : Except CommandError String :=
  match readScript source with
  | .ok script => .ok ("Syntax is valid (" ++ script.statements.length.repr ++ " statements)\n")
  | .error list => .error (.diagnostics list)

/-- The tokens of a script, as they are reported. -/
def listed (source : String) : Except CommandError String :=
  match tokenize source with
  | .ok found => .ok (Report.tokens found ++ "\n")
  | .error e => .error (.diagnostics [.lex e])

/-- A page of the manual. -/
def page (category : String) : Except CommandError String :=
  match Manual.page? category with
  | some text => .ok text
  | none => .error (.unknownCategory category)

/-- The outcome of a command that prints a text or fails. -/
def outcome (c : Command) : Except CommandError String → Outcome
  | .ok text => .printed text
  | .error e => .failed c.format e

/-- Run the command that compiles. -/
def runCompile (input? : Option (List UInt8)) (settings : Settings) (options : CompileCommand) :
    m (Except CommandError Delivery) := do
  match ← readSource input? options.script? with
  | .error e => return .error e
  | .ok source =>
      CompileRequest.execute
        ⟨source, scriptPath? options.script?, options.output?, options.snippets?⟩ settings

/-- Run a session on the whole of the standard input. -/
def runSession (input? : Option (List UInt8)) (settings : Settings) : m Outcome := do
  let library ← settings.library
  match Session.transcript library (Text.lines? (input?.getD [])) with
  | (text, none) => return .printed text
  | (text, some cause) => return { Outcome.failed .text (.file cause) with output := text }

/-- Run a command with settings. -/
def runWith (input? : Option (List UInt8)) (settings : Settings) (c : Command) : m Outcome := do
  match c with
  | compile options =>
      match ← runCompile input? settings options with
      | .ok (.printed text) => return .printed text
      | .ok (.written path) => return ⟨0, "", "wrote " ++ path ++ "\n"⟩
      | .error e => return .failed options.format e
  | check script? _ =>
      let source ← readSource input? script?
      return c.outcome (source.bind checked)
  | tokens script? =>
      let source ← readSource input? script?
      return c.outcome (source.bind listed)
  | repl => runSession input? settings
  | docs => return .printed Manual.overview
  | doc category => return c.outcome (page category)

end Command

/-- Run an invocation. -/
def Invocation.run (input? : Option (List UInt8)) (i : Invocation) : m Outcome := do
  match ← Settings.discover i.settings? with
  | .error e => return .failed i.command.format (.settings e)
  | .ok settings => i.command.runWith input? settings

/-- What the program says about its use. -/
def usage : String :=
  Manual.lines
    [ "Usage: sift [--config PATH] COMMAND",
      "",
      "Commands:",
      "  compile [SCRIPT] [-o PATH] [--snippets DIR] [--format text|json]",
      "  check [SCRIPT] [--format text|json]",
      "  tokens [SCRIPT]",
      "  repl",
      "  docs",
      "  doc CATEGORY" ]

/-- The name and the version of the program. -/
def version : String := "sift 0.2.0"

/-- The outcome of words that give no command. -/
def Arguments.Refusal.outcome : Arguments.Refusal → Outcome
  | usage => .printed RecordFlow.usage
  | version => .printed (RecordFlow.version ++ "\n")
  | invalid => ⟨2, "", RecordFlow.usage⟩

/-- Run a command line. -/
def runWords (input? : Option (List UInt8)) (words : List String) : m Outcome :=
  match Arguments.parse words with
  | .ok invocation => invocation.run input?
  | .error refusal => return refusal.outcome

end RecordFlow
