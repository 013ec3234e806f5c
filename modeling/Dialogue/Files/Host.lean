import Dialogue.Files.Tree

/-!
# Hosts

What a program can ask of the system it runs on, whether that is a real one or a value in memory.
Files are written by way of a temporary file, so that a reader never sees half of one.
-/

namespace Dialogue

/-- Where a program writes. The prompts of a line reader go to the terminal, past the program's own
output. -/
inductive Channel where
  | out
  | err
  | prompt
  deriving DecidableEq

class Host (m : Type → Type) where
  readFile : (path : Bytes) → m (Except FileError Bytes)
  /-- Writes a file over the one that was there. -/
  writeFile : (path contents : Bytes) → m (Except FileError Unit)
  rename : (old new : Bytes) → m (Except FileError Unit)
  /-- Removes a file or an empty directory, if there is one. -/
  remove : (path : Bytes) → m Unit
  workingDirectory : m Bytes
  home : m (Option Bytes)
  write : Channel → Bytes → m Unit

variable {m : Type → Type} [Monad m] [Host m]

def absolutePath (path : Bytes) : m Bytes := do
  return Path.absolute (← Host.workingDirectory) path

/-- Writes a file by way of a temporary one next to it, which is gone afterwards in any case. -/
def writeFileAtomic (path contents : Bytes) : m (Except FileError Unit) := do
  let full ← absolutePath path
  let temporary := Path.temporary full
  match ← Host.writeFile temporary contents with
  | .error e =>
    Host.remove temporary
    return .error e
  | .ok () =>
    match ← Host.rename temporary full with
    | .error e =>
      Host.remove temporary
      return .error e
    | .ok () => return .ok ()

end Dialogue
