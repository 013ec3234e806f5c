import Dialogue.Text.Numeral

/-!
# Operations and opcodes

The twelve operations of the dialogue machine. An opcode word holds the number of the operation in
its lower twelve bits and a mode in its upper four.
-/

namespace Dialogue

inductive Operation where
  | noOp
  | halt
  | actor
  | line
  | emotion
  | action
  | color
  | wait
  | sync
  | userInput
  | namedCall
  | jump
  deriving DecidableEq

namespace Operation

def code : Operation → UInt16
  | noOp => 0x0
  | halt => 0x1
  | actor => 0x2
  | line => 0x3
  | emotion => 0x4
  | action => 0x5
  | color => 0x6
  | wait => 0x7
  | sync => 0x8
  | userInput => 0x9
  | namedCall => 0xA
  | jump => 0xB

/-- All operations, in the order of their numbers. -/
def all : List Operation :=
  [noOp, halt, actor, line, emotion, action, color, wait, sync, userInput, namedCall, jump]

def ofCode? (n : UInt16) : Option Operation :=
  all.find? fun op => op.code == n

def name : Operation → String
  | noOp => "NOOP"
  | halt => "HALT"
  | actor => "ACTOR"
  | line => "LINE"
  | emotion => "EMOTION"
  | action => "ACTION"
  | color => "COLOR"
  | wait => "WAIT"
  | sync => "SYNC"
  | userInput => "USER_INPUT"
  | namedCall => "NAMED_CALL"
  | jump => "JUMP"

/-- The name of the operation with the given number, or the number itself where there is none. -/
def nameOfCode (n : UInt16) : String :=
  match ofCode? n with
  | some op => op.name
  | none => "OP(0x" ++ Numeral.upperHex 3 n.toNat ++ ")"

end Operation

structure Opcode where
  operation : UInt16
  mode : UInt16
  deriving DecidableEq

namespace Opcode

/-- Packs operation and mode into a word. Only the lower bits of either enter. -/
def toWord (o : Opcode) : UInt16 :=
  o.operation % 0x1000 + o.mode % 0x10 * 0x1000

def ofWord (w : UInt16) : Opcode where
  operation := w % 0x1000
  mode := w / 0x1000

end Opcode

/-- The mode of a first or only opcode. -/
def Mode.plain : UInt16 := 0

/-- The mode of a further actor, a call with a parameter pack, or a marker. -/
def Mode.extra : UInt16 := 1

/-- The mode that addresses all remaining actors. -/
def Mode.everyone : UInt16 := 2

end Dialogue
