import Dialogue.Instruction.Basic
import Dialogue.Program.Basic

/-!
# Assembling

Each instruction stands for a row of steps, and a program is the result of the steps of all its
instructions.
-/

namespace Dialogue

inductive EncodeFault where
  | nulInParam (text : Bytes)
  /-- There is not exactly one parameter. -/
  | paramCount (count : Nat)
  /-- The wildcard stands behind another actor. Positions count from one. -/
  | lateWildcard (position : Nat)
  | notNumeric
  | unknownOperation
  deriving DecidableEq

def EncodeFault.message : EncodeFault → String
  | nulInParam text => "NUL character in parameter " ++ Quoted.text text
  | paramCount count => "expects 1 parameter, got " ++ Numeral.decimal count
  | lateWildcard position => "wildcard actor at position " ++ Numeral.decimal position
  | notNumeric => "expects one numeric parameter"
  | unknownOperation => "unknown operation"

structure EncodeError where
  op : UInt16
  line : Int
  fault : EncodeFault
  deriving DecidableEq

def EncodeError.message (e : EncodeError) : String :=
  "encode error: " ++ Operation.nameOfCode e.op
    ++ (if 0 < e.line then " on line " ++ Numeral.signed e.line else "")
    ++ ": " ++ e.fault.message

namespace Instruction

/-- The first text parameter with a zero byte, which would end its entry in the table too early. -/
def nulParam? (i : Instruction) : Option Bytes :=
  i.params.findSome? fun
    | .text s => if 0 ∈ s then some s else none
    | _ => none

/-- The steps of the actors from position `n` on: an opcode and a hash for each, or an opcode alone
for the wildcard, which has to come first. -/
def actorSteps (i : Instruction) : (n : Nat) → List Param → Except EncodeFault (List Step)
  | _, [] => .ok []
  | n, p :: ps =>
    if p.toText = Text.utf8 "..." then
      if n = 0 then (actorSteps i (n + 1) ps).map (.opcode (i.opcode Mode.everyone) :: ·)
      else .error (.lateWildcard (n + 1))
    else
      let mode := if n = 0 then Mode.plain else Mode.extra
      (actorSteps i (n + 1) ps).map
        ([.opcode (i.opcode mode), .named p.toText] ++ ·)

/-- The steps of a call with any number of parameters but one. -/
def packSteps (i : Instruction) : List Step :=
  [.opcode (i.opcode Mode.extra), .pack (i.params.map Param.toText)]

/-- The operand of a named call with one parameter. -/
def callOperand : Param → Step
  | .bool true => .operand 1
  | .bool false => .operand 0
  | .int v => .operand v
  | .text s => .string s

def stepsOf (i : Instruction) : Operation → Except EncodeFault (List Step)
  | .noOp | .halt | .sync | .userInput => .ok [.opcode (i.opcode 0)]
  | .line =>
    match i.params with
    | [p] => .ok [.opcode (i.opcode 0), .string p.toText]
    | ps => .error (.paramCount ps.length)
  | .actor =>
    if i.params.isEmpty then .ok [.opcode (i.opcode 0), .operand 0] else i.actorSteps 0 i.params
  | .emotion => .ok [.opcode (i.opcode 0), .named i.name]
  | .color | .wait | .jump =>
    match i.params with
    | [.int v] => .ok [.opcode (i.opcode 0), .operand v]
    | _ => .error .notNumeric
  | .action => .ok (if i.params.isEmpty then [.opcode (i.opcode 0)] else i.packSteps)
  | .namedCall =>
    match i.params with
    | [p] => .ok [.opcode (i.opcode 0), callOperand p]
    | _ => .ok i.packSteps

def steps (i : Instruction) : Except EncodeFault (List Step) :=
  match i.nulParam? with
  | some text => .error (.nulInParam text)
  | none =>
    match Operation.ofCode? i.op with
    | some op => i.stepsOf op
    | none => .error .unknownOperation

end Instruction

namespace Program

def add (p : Program) (i : Instruction) : Except EncodeError Program :=
  match i.steps with
  | .ok steps => .ok ((p.mark i.line).run steps)
  | .error fault => .error ⟨i.op, i.line, fault⟩

def assemble (order : Option ByteOrder) (is : List Instruction) : Except EncodeError Program :=
  is.foldlM add (start order)

end Program

end Dialogue
