import Dialogue.Command.Run

/-!
# The program

The commands on the system that the program runs on.
-/

namespace Dialogue

/-- The fault behind an error of the system. The number of an error comes with either sign. -/
def FileFault.ofError : IO.Error → FileFault
  | .noFileOrDirectory .. => .notFound
  | .alreadyExists .. => .alreadyExists
  | .inappropriateType _ code _ =>
    if code = 21 ∨ code = -21 then .isDirectory else .notDirectory
  | .invalidArgument _ code _ =>
    if code = 36 ∨ code = -36 then .nameTooLong else .invalidPath
  | .permissionDenied .. => .other "permission denied"
  | e => .other (toString e)

def pathString (path : Bytes) : String :=
  String.ofList (Text.decode path)

/-- Runs an action on files and gives its fault as a value. -/
def attempt {α : Type} (toError : FileFault → FileError) (action : IO α) :
    IO (Except FileError α) := do
  match ← action.toBaseIO with
  | .ok a => return .ok a
  | .error e => return .error (toError (.ofError e))

instance : Host IO where
  readFile path := do
    let toError (fault : FileFault) : FileError :=
      if fault = .isDirectory then .reading path fault else .opening path fault
    attempt toError ((·.toList) <$> IO.FS.readBinFile (pathString path))
  writeFile path contents :=
    attempt (.opening path) (IO.FS.writeBinFile (pathString path) ⟨contents.toArray⟩)
  rename old new := do
    let toError (fault : FileFault) : FileError :=
      .moving old new (if fault = .isDirectory then .alreadyExists else fault)
    attempt toError (IO.FS.rename (pathString old) (pathString new))
  remove path := do
    try IO.FS.removeFile (pathString path)
    catch _ => try IO.FS.removeDir (pathString path) catch _ => pure ()
  workingDirectory := return Text.utf8 (← IO.currentDir).toString
  home := do
    match ← IO.getEnv "HOME" with
    | none | some "" => return none
    | some home => return some (Text.utf8 home)
  write channel text := do
    let stream ← if channel = .err then IO.getStderr else IO.getStdout
    stream.write ⟨text.toArray⟩
    stream.flush

/-- Reads on behind the bytes `held` until there is a line. -/
partial def readLine (input : IO.FS.Stream) (held : Bytes) :
    IO (Option (Repl.InputLine × Bytes)) := do
  if held.contains 0x0A || Repl.bufferSize < held.length then
    return Repl.firstLine? Repl.bufferSize held
  let more ← input.read 1
  if more.isEmpty then return Repl.firstLine? Repl.bufferSize held
  readLine input (held ++ more.toList)

/-- Holds a session with the user, behind the text `pending` of an open snippet. -/
partial def converse (input : IO.FS.Stream) (held pending : Bytes) (session : Repl.Session) :
    IO Repl.Session := do
  Host.write .prompt (Repl.promptFor pending)
  match ← readLine input held with
  | none =>
    Host.write .out (Text.utf8 "\n")
    return session
  | some (line, held) =>
    let text := Repl.extend pending line.text
    if Repl.isIncomplete text then converse input held text session
    else
      let outcome := session.accept text
      for (channel, shown) in outcome.output do
        Host.write channel shown
      if outcome.isLast then return outcome.session
      converse input held [] outcome.session

end Dialogue

open Dialogue in
def main (arguments : List String) : IO UInt32 := do
  let input ← IO.getStdin
  match ← (Command.run (converse input [] []) (arguments.map Text.utf8)).run with
  | .ok () => return 0
  | .error e =>
    Host.write .err (e.message ++ Text.utf8 "\n")
    return e.exitCode
