import Dialogue.Compile
import Dialogue.Listing.Table

/-!
# Evaluation

A snippet is shown as the listing of the module it compiles to.
-/

namespace Dialogue

/-- A compile error as it is shown to the author of a script: with the line it is about, if it is
about one. -/
def CompileError.display (source : Bytes) (e : CompileError) : Bytes :=
  (e.toFailure.snippet? source).getD e.toFailure.message

inductive EvaluationError where
  | compile (e : CompileError)
  | decode (e : DecodeError)
  deriving DecidableEq

def EvaluationError.message (source : Bytes) : EvaluationError → Bytes
  | compile e => e.display source
  | decode e => Text.utf8 e.message

/-- The listing of the module that a snippet compiles to, with the lines of the snippet. -/
def evaluate (source : Bytes) (opts : CompileOptions) : Except EvaluationError String := do
  let r ← (compile source opts).mapError .compile
  let m ← (Module.decode r.binary
    { order := some r.program.order, legacyDataSize := opts.legacyDataSize }).mapError .decode
  let l ← (Listing.ofModule m).mapError .decode
  return (l.attachSource r.program.sourceMap).table

end Dialogue
