import Dialogue.Module.Layout
import Dialogue.Program.Assembly
import Dialogue.Script.Reader

/-!
# Compiling scripts

From the bytes of a script to the bytes of a module, through units, instructions and a program.
-/

namespace Dialogue

open Script

/-- How a script is compiled. Without a byte order the module is little-endian. -/
structure CompileOptions extends ModuleOptions where
  order : Option ByteOrder := some .little
  deriving DecidableEq

inductive CompileError where
  | script (d : Diagnostic)
  | encode (e : EncodeError)
  deriving DecidableEq

def CompileError.toFailure : CompileError → Failure
  | script d => .diagnostic d
  | encode e => .plain (Text.utf8 e.message)

structure Compilation where
  units : List LexUnit
  instructions : List Instruction
  program : Program
  binary : Bytes
  deriving DecidableEq

def compile (source : Bytes) (opts : CompileOptions) : Except CompileError Compilation := do
  let units ← (LexUnit.ofSource source).mapError .script
  let instructions ← (instructions units).mapError .script
  let program ← (Program.assemble opts.order instructions).mapError .encode
  return {
    units := units
    instructions := instructions
    program := program
    binary := program.package opts.toModuleOptions }

end Dialogue
