/-
# The program

The outer layer: files of the machine, the standard streams, and a session that answers line by
line. All that is decided is decided elsewhere.
-/

import RecordFlow.Command.Run

namespace RecordFlow

/-- Whether a code is the number of a failure, which is given with either sign. -/
def isCode (code number : UInt32) : Bool := code == number || code == 0 - number

/-- What a failure of the machine means here. -/
def FileError.ofMachine (e : IO.Error) : FileError :=
  match e with
  | .noFileOrDirectory .. => .notFound
  | .noSuchThing .. => .notFound
  | .alreadyExists .. => .alreadyExists
  | .inappropriateType _ code _ =>
      if isCode code 20 then .notDirectory
      else if isCode code 21 then .isDirectory
      else .other e.toString
  | e => .other e.toString

/-- Run an action of the machine and take its failure as a value. -/
def attempt {α : Type} (action : IO α) : IO (Except FileError α) := do
  try
    return .ok (← action)
  catch e =>
    return .error (.ofMachine e)

/-- The bytes of a file of the machine. -/
def readMachineFile (path : String) : IO (Except FileError (List UInt8)) :=
  attempt do
    let bytes ← IO.FS.readBinFile path
    return bytes.toList

/-- Files of the machine. What can be read is a file, and so is what is there but closed to us. -/
instance : MonadFiles IO where
  readBytes := readMachineFile
  isFile path := do
    match ← readMachineFile path with
    | .error .notFound | .error .notDirectory | .error .isDirectory => return false
    | _ => return true
  isDirectory path := do
    let outcome ← readMachineFile path
    return outcome matches .error .isDirectory
  createDir path := attempt (IO.FS.createDir path)
  writeBytes path bytes := attempt (IO.FS.writeBinFile path ⟨bytes.toArray⟩)

/-- All bytes of a stream. -/
partial def readAll (stream : IO.FS.Stream) (found : ByteArray) : IO ByteArray := do
  let more ← stream.read 65536
  if more.isEmpty then return found else readAll stream (found ++ more)

/-- The standard input, unless it is a terminal. -/
def standardInput? : IO (Option (List UInt8)) := do
  let stdin ← IO.getStdin
  if ← stdin.isTty then return none
  let bytes ← readAll stdin .empty
  return some bytes.toList

/-- Answer the lines of a session as they come. -/
partial def converse (library : Library) (s : Session) : IO Unit := do
  let line ← (← IO.getStdin).getLine
  if line.isEmpty then
    IO.print "\n"
  else
    let text := String.ofList (Text.withoutBreak line.toList)
    let (answer, next?) := s.react library text
    IO.print answer
    (← IO.getStdout).flush
    if let some next := next? then converse library next

/-- Run a session at a terminal. -/
def interact (settings : Settings) : IO Unit := do
  let library ← settings.library
  IO.print Session.fresh.prompt
  (← IO.getStdout).flush
  converse library .fresh

/-- Write an outcome to the standard streams. -/
def deliver (o : Outcome) : IO UInt32 := do
  IO.print o.output
  IO.eprint o.errors
  return o.code.toUInt32

/-- Run an invocation. A session at a terminal is answered as it goes. -/
def runInvocation (i : Invocation) : IO UInt32 := do
  if i.command = .repl ∧ (← (← IO.getStdin).isTty) then
    match ← Settings.discover i.settings? with
    | .ok settings =>
        interact settings
        return 0
    | .error e => deliver (.failed .text (.settings e))
  else
    let input? ←
      if i.command.readsInput || i.command = .repl then standardInput? else pure none
    deliver (← i.run input?)

end RecordFlow

open RecordFlow in
/-- Run a command line. -/
def main (words : List String) : IO UInt32 :=
  match Arguments.parse words with
  | .ok invocation => runInvocation invocation
  | .error refusal => deliver refusal.outcome
