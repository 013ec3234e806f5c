import Dialogue.Repl.Lines

/-!
# History

The snippets that were typed, over all sessions, one on a line of the history file.
-/

namespace Dialogue.Repl

def historyFile : Bytes := Text.utf8 ".animac_history"

def historyLimit : Nat := 1000

/-- The history with one more entry. The oldest one gives way if there are too many. -/
def push (history : List Bytes) (entry : Bytes) : List Bytes :=
  let longer := history ++ [entry]
  if historyLimit < longer.length then longer.drop 1 else longer

/-- The history with one more entry, unless it is the same as the last. -/
def remember (history : List Bytes) (entry : Bytes) : List Bytes :=
  if history.getLast? = some entry then history else push history entry

/-- Reads entries until one is too long or no text. -/
def loadEntries : (history : List Bytes) → List InputLine → List Bytes
  | history, [] => history
  | history, line :: lines =>
    if line.isPiece || !Text.isWellFormed line.text then history
    else loadEntries (push history line.text) lines

def loadHistory (contents : Bytes) : List Bytes :=
  loadEntries [] (inputLines bufferSize contents)

def historyContents (history : List Bytes) : Bytes :=
  history.flatMap (· ++ [0x0A])

/-- A snippet as an entry: on one line. -/
def historyEntry (snippet : Bytes) : Bytes :=
  snippet.map fun b => if b = 0x0A then 0x20 else b

end Dialogue.Repl
