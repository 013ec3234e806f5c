import Dialogue.Module.Decode
import Dialogue.Text.Quoted

/-!
# Disassembly

The code of a module as a list of entries. Operation and mode of an opcode tell how many operands
follow it and what they mean.
-/

namespace Dialogue

inductive OperandKind where
  | literal
  /-- The hash of a name. -/
  | hashed
  /-- The number of a text. -/
  | dataRef
  /-- The number of the first of some texts; how many there are is the next operand. -/
  | packRef
  /-- The number of a text, or a truth value. -/
  | maybeRef
  deriving DecidableEq

def Operation.operands : Operation → (mode : UInt16) → List OperandKind
  | noOp, _ | halt, _ | sync, _ | userInput, _ => []
  | line, _ => [.dataRef]
  | actor, mode => if mode = Mode.everyone then [] else [.hashed]
  | emotion, _ | color, _ => [.hashed]
  | action, mode => if mode = Mode.extra then [.packRef, .literal] else []
  | namedCall, mode => if mode = Mode.extra then [.packRef, .literal] else [.maybeRef]
  | wait, _ | jump, _ => [.literal]

structure CodeEntry where
  offset : Nat
  op : Operation
  mode : UInt16
  operands : List UInt64
  /-- The texts that the operands refer to. -/
  comment : String
  /-- The line of the source, zero if unknown. -/
  line : Int := 0
  deriving DecidableEq

/-- The text with the given number, which counts from one. -/
def ref? (data : List Bytes) (v : UInt64) : Option Bytes :=
  if v = 0 then none else data[v.toNat - 1]?

/-- The texts from number `v` on, `n` of them or up to the end of the table. -/
def refs (data : List Bytes) (v n : UInt64) : List Bytes :=
  if n = 0 then []
  else match ref? data v with
    | none => []
    | some text => text :: refs data (v + 1) (n - 1)
termination_by n.toNat
decreasing_by
  have hn : ¬ n = 0 := by assumption
  have hpos : 0 < n.toNat := Nat.pos_of_ne_zero fun h => hn (UInt64.toNat_inj.mp h)
  have hle : (1 : UInt64) ≤ n := UInt64.le_iff_toNat_le.mpr hpos
  rw [UInt64.toNat_sub_of_le _ _ hle]
  exact Nat.sub_lt hpos Nat.one_pos

def annotate (data : List Bytes) : List OperandKind → List UInt64 → String
  | .dataRef :: _, v :: _ | .maybeRef :: _, v :: _ => ((ref? data v).map Quoted.text).getD ""
  | .packRef :: _, v :: n :: _ =>
    "(" ++ ", ".intercalate ((refs data v n).map Quoted.text) ++ ")"
  | _, _ => ""

def readWords (order : ByteOrder) : (n : Nat) → Bytes → List UInt64
  | 0, _ => []
  | n + 1, bs => order.read64 bs :: readWords order n (bs.drop 8)

def entriesFrom (order : ByteOrder) (data : List Bytes) (offset : Nat) (code : Bytes) :
    Except DecodeError (List CodeEntry) :=
  match code with
  | [] => .ok []
  | [_] => .error (.truncatedOpcode offset)
  | b₀ :: b₁ :: rest =>
    let opcode := Opcode.ofWord (order.read16 [b₀, b₁])
    match Operation.ofCode? opcode.operation with
    | none => .error (.unknownOperation opcode.operation offset)
    | some op =>
      let kinds := op.operands opcode.mode
      let width := 8 * kinds.length
      if (rest.take width).length < width then
        .error (.truncatedOperand op (offset + 2 + rest.length / 8 * 8))
      else
        let operands := readWords order kinds.length rest
        let entry : CodeEntry :=
          { offset := offset, op := op, mode := opcode.mode, operands := operands,
            comment := annotate data kinds operands }
        (entriesFrom order data (offset + 2 + width) (rest.drop width)).map (entry :: ·)
termination_by code.length
decreasing_by
  simp only [List.length_drop, List.length_cons]
  omega

def Module.disassemble (m : Module) : Except DecodeError (List CodeEntry) :=
  entriesFrom m.order m.data 0 m.code

end Dialogue
