import Dialogue.Files.Host
import Dialogue.Repl.Evaluation
import Dialogue.Repl.History
import Dialogue.Repl.Snippet
import Dialogue.Stages

/-!
# Sessions

Snippets are compiled one by one, each on its own, and the listing of the module is shown.
-/

namespace Dialogue.Repl

def firstPrompt : Bytes := Text.utf8 "anima> "

def nextPrompt : Bytes := Text.utf8 "   ... "

def promptFor (pending : Bytes) : Bytes :=
  if pending.isEmpty then firstPrompt else nextPrompt

structure Session where
  options : CompileOptions
  isVerbose : Bool
  history : List Bytes

/-- What comes of a snippet: the session after it, what is written, and whether it is the last. -/
structure Outcome where
  session : Session
  output : List (Channel × Bytes) := []
  isLast : Bool := false

namespace Session

def reply (s : Session) (snippet : Bytes) : List (Channel × Bytes) :=
  let log := if s.isVerbose then stages snippet s.options else []
  let result := match evaluate snippet s.options with
    | .ok table => (Channel.out, Text.utf8 table)
    | .error e => (Channel.err, e.message snippet ++ Text.utf8 "\n")
  log.map (fun stage => (Channel.err, Text.utf8 (stage.message ++ "\n"))) ++ [result]

/-- Takes a snippet in. Blank ones are passed over, and a word ends the session. -/
def accept (s : Session) (snippet : Bytes) : Outcome :=
  let word := Text.trim snippet
  if word.isEmpty then { session := s }
  else if word = Text.utf8 ":quit" ∨ word = Text.utf8 ":q" then { session := s, isLast := true }
  else
    { session := { s with history := remember s.history (historyEntry snippet) }
      output := s.reply snippet }

def prompts : (n : Nat) → List (Channel × Bytes)
  | 0 => []
  | n + 1 => (.prompt, firstPrompt) :: List.replicate n (.prompt, nextPrompt)

/-- A session on the given lines. At the end of the input the line is ended, and a snippet that is
still open is dropped. -/
def run (s : Session) (lines : List Bytes) : Session × List (Channel × Bytes) :=
  match h : readSnippet [] lines with
  | none => (s, prompts (lines.length + 1) ++ [(.out, Text.utf8 "\n")])
  | some (snippet, rest) =>
    have := length_readSnippet_lt h
    let asked := prompts (lines.length - rest.length)
    let outcome := s.accept snippet
    if outcome.isLast then (outcome.session, asked ++ outcome.output)
    else
      let (final, more) := outcome.session.run rest
      (final, asked ++ outcome.output ++ more)
termination_by lines.length

end Session

end Dialogue.Repl
