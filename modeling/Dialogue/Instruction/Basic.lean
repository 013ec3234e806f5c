import Dialogue.Instruction.Operation
import Dialogue.Text.Quoted

/-!
# Instructions

What a script says, one instruction after the other: an operation with a name, parameters, a mode
and the place in the script it came from.
-/

namespace Dialogue

inductive Param where
  | text (s : Bytes)
  | int (v : UInt64)
  | bool (b : Bool)
  deriving DecidableEq

namespace Param

def toText : Param → Bytes
  | text s => s
  | int v => Text.utf8 (Numeral.decimal v.toNat)
  | bool true => Text.utf8 "true"
  | bool false => Text.utf8 "false"

/-- A parameter as it is shown to a reader: texts are quoted. -/
def display : Param → Bytes
  | text s => Text.utf8 (Quoted.text s)
  | p => p.toText

end Param

/-- An instruction. The operation is given by its number, which need not be that of a known one.
Lines and columns count from one, and zero stands for none. -/
structure Instruction where
  op : UInt16
  name : Bytes := []
  params : List Param := []
  mode : UInt16 := 0
  line : Int := 0
  col : Int := 0
  deriving DecidableEq

namespace Instruction

/-- The opcode word of an instruction. The mode asked for wins over the instruction's own, unless it
is the plain one. -/
def opcode (i : Instruction) (mode : UInt16) : UInt16 :=
  Opcode.toWord ⟨i.op, if mode = 0 then i.mode else mode⟩

def display (i : Instruction) : Bytes :=
  Text.utf8 (Operation.nameOfCode i.op)
    ++ (if i.name.isEmpty then [] else Text.utf8 " " ++ i.name)
    ++ (if i.params.isEmpty then []
        else Text.utf8 " (" ++ (Text.utf8 ", ").intercalate (i.params.map Param.display)
          ++ Text.utf8 ")")
    ++ (if i.mode = 0 then [] else Text.utf8 (" mode=" ++ Numeral.decimal i.mode.toNat))

end Instruction

end Dialogue
