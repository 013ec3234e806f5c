import Dialogue.NameHash
import Dialogue.WordMap

/-!
# Programs

The assembled form of a script: a table of texts, a table of jumps and a stream of opcodes and
operands. A program grows by steps, each of which puts words at the end of the code and texts at the
end of the table.
-/

namespace Dialogue

/-- An assembled program. The code refers to the texts by their number, which counts from one. -/
structure Program where
  data : List Bytes
  jumps : WordMap UInt64
  code : Bytes
  /-- The source lines of the instructions that start at the given offsets of the code. -/
  sourceMap : WordMap Int
  order : ByteOrder
  deriving DecidableEq

inductive Step where
  | opcode (word : UInt16)
  | operand (value : UInt64)
  /-- An operand that refers to a text. -/
  | string (text : Bytes)
  /-- An operand that is the hash of a name. -/
  | named (name : Bytes)
  /-- Two operands: the number of the first of some texts, and how many there are. -/
  | pack (texts : List Bytes)
  deriving DecidableEq

namespace Program

/-- The program without code. Its table starts with the texts of the two truth values. -/
def start (order : Option ByteOrder) : Program where
  data := [Text.utf8 "false", Text.utf8 "true"]
  jumps := .empty
  code := []
  sourceMap := .empty
  order := order.getD .little

def nextRef (p : Program) : UInt64 :=
  .ofNat p.data.length + 1

def addOperand (p : Program) (value : UInt64) : Program :=
  { p with code := p.code ++ p.order.write64 value }

def addTexts (p : Program) (texts : List Bytes) : Program :=
  { p with data := p.data ++ texts }

def apply (p : Program) : Step → Program
  | .opcode word => { p with code := p.code ++ p.order.write16 word }
  | .operand value => p.addOperand value
  | .string text => (p.addOperand p.nextRef).addTexts [text]
  | .named name => p.addOperand (NameHash.ofBytes name)
  | .pack texts =>
    ((p.addOperand p.nextRef).addOperand (.ofNat texts.length)).addTexts texts

def run (p : Program) (steps : List Step) : Program :=
  steps.foldl apply p

def addJump (p : Program) (label target : UInt64) : Program :=
  { p with jumps := p.jumps.insert label target }

/-- The program with the end of its code marked as the start of the given source line. -/
def mark (p : Program) (line : Int) : Program :=
  if 0 < line then { p with sourceMap := p.sourceMap.insert (.ofNat p.code.length) line } else p

end Program

end Dialogue
