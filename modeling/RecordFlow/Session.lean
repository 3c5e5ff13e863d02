/-
# Interactive sessions

A session takes lines. Lines are pending until one of them ends the entry with a semicolon. The
entry is then compiled together with everything accepted before, and it is accepted itself if that
succeeds; else it is dropped and the session is as it was before the entry.

A transcript is what a session writes for a stream of input: prompts, compiled text and errors.
-/

import RecordFlow.Compile
import RecordFlow.File.Error
import RecordFlow.Text.Blank

namespace RecordFlow

/-- The state of a session. -/
structure Session where
  /-- The text of all accepted entries. -/
  accepted : String
  /-- The lines of the entry that is not complete. -/
  pending : String
deriving DecidableEq

namespace Session

/-- A session without any entry. -/
def fresh : Session := ⟨"", ""⟩

/-- Whether something other than blanks is pending. -/
def isPending (s : Session) : Bool := !(Text.trim s.pending.toList).isEmpty

/-- Whether an entry is complete: blanks aside, a semicolon is its last character. -/
def isComplete (entry : String) : Bool := (Text.trimEnd entry.toList).getLast? == some ';'

/-- Take a line. The answer is the outcome of compiling, or none while the entry is incomplete. -/
def feed (library : Library) (s : Session) (line : String) :
    Option (Except (List Diagnostic) String) × Session :=
  let entry := s.pending ++ line ++ "\n"
  if isComplete entry then
    let candidate := s.accepted ++ entry
    match compile library candidate with
    | .ok text => (some (.ok text), ⟨candidate, ""⟩)
    | .error diagnostics => (some (.error diagnostics), ⟨s.accepted, ""⟩)
  else (none, ⟨s.accepted, entry⟩)

/-- What asks for the next line. -/
def prompt (s : Session) : String := if s.isPending then "...> " else "sift> "

/-- What is written for the outcome of an entry: the compiled text, or one line for each error. -/
def outcomeText : Option (Except (List Diagnostic) String) → String
  | none => ""
  | some (.ok text) => text ++ "\n"
  | some (.error diagnostics) => String.join (diagnostics.map fun d => "error: " ++ d.text ++ "\n")

/-- The lines that are commands to the session. Blanks around them do not count. -/
inductive Order
  | quit
  | reset

/-- The command that a line gives. -/
def order? (line : String) : Option Order :=
  match String.ofList (Text.trim line.toList) with
  | ":quit" | ":q" => some .quit
  | ":reset" => some .reset
  | _ => none

/-- Take a line as a user gives it. The answer is what is written, with the next prompt if the
session goes on, and the session as it goes on. -/
def react (library : Library) (s : Session) (line : String) : String × Option Session :=
  match order? line with
  | some .quit => ("\n", none)
  | some .reset => ("cleared\n" ++ fresh.prompt, some fresh)
  | none =>
      let (outcome, s) := s.feed library line
      (outcomeText outcome ++ s.prompt, some s)

/-- What is written for the lines that follow, and the failure that ended the input, if one did. A
line that is no text ends the session where it stands. -/
def transcriptFrom (library : Library) (s : Session) :
    List (Option String) → String × Option FileError
  | [] => ("\n", none)
  | none :: _ => ("", some .invalidText)
  | some line :: rest =>
      match s.react library line with
      | (text, none) => (text, none)
      | (text, some s) =>
          let more := transcriptFrom library s rest
          (text ++ more.1, more.2)

/-- What a session writes for a stream of lines, each of which may fail to be a text. -/
def transcript (library : Library) (lines : List (Option String)) : String × Option FileError :=
  let more := transcriptFrom library fresh lines
  (fresh.prompt ++ more.1, more.2)

end Session

end RecordFlow
