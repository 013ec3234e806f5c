import Dialogue.Instruction.Basic
import Dialogue.NameHash
import Dialogue.Script.LexUnit
import Dialogue.Script.ParamGroup

/-!
# Reading instructions

The first byte of a unit, its sigil, tells which instruction it stands for. An action and a named
call may take the unit after them as their argument.
-/

namespace Dialogue.Script

structure Reading where
  /-- The instruction a unit stands for; none for comments and the like. -/
  instruction? : Option Instruction := none
  /-- Whether the next unit was taken as an argument. -/
  takesNext : Bool := false
  deriving DecidableEq

namespace Reading

def nothing : Reading := {}

def alone (i : Instruction) : Reading :=
  { instruction? := some i }

def withNext (i : Instruction) : Reading :=
  { instruction? := some i, takesNext := true }

end Reading

namespace LexUnit

def trimmed (u : LexUnit) : LexUnit :=
  { u with text := Text.trim u.text }

def startsWith (u : LexUnit) (b : UInt8) : Bool :=
  u.text.head? == some b

def blame {α : Type} (u : LexUnit) (r : Except Fault α) : Except Diagnostic α :=
  r.mapError u.diagnostic

def group (u : LexUnit) : Except Diagnostic (List Bytes) :=
  u.blame (ParamGroup.read u.text)

def literal (u : LexUnit) : Except Diagnostic Bytes :=
  u.blame (Literal.read u.text)

def sigilName (u : LexUnit) : Except Diagnostic Bytes :=
  if u.text.length < 2 then .error (u.diagnostic (.missingName u.text)) else .ok (u.text.drop 1)

end LexUnit

def textParams (texts : List Bytes) : List Param :=
  texts.map Param.text

def isIdentStart (b : UInt8) : Bool :=
  let c := Char.ofUInt8 b
  c.isAlpha || c == '_'

def isIdentRest (b : UInt8) : Bool :=
  isIdentStart b || (Char.ofUInt8 b).isDigit || b == 0x2D

/-- Whether a text is an identifier: ASCII letters, digits, underscores and hyphens, with a letter
or an underscore in front. -/
def isIdentifier : Bytes → Bool
  | [] => false
  | b :: bs => isIdentStart b && bs.all isIdentRest

/-- The actor that stands for all remaining ones. -/
def wildcard : Bytes := Text.utf8 "..."

/-- What is wrong with the names of an actor group: the wildcard stands behind another name, or a
name holds a dot. -/
def actorFault? : (isFirst : Bool) → List Bytes → Option Fault
  | _, [] => none
  | isFirst, name :: names =>
    if name = wildcard then
      if isFirst then actorFault? false names else some .lateWildcard
    else if 0x2E ∈ name then some (.badActorName name)
    else actorFault? false names

namespace LexUnit

/-- An action, with the parameters of the group after it, if one follows. -/
def readAction (u : LexUnit) (next? : Option LexUnit) : Except Diagnostic Reading := do
  let i : Instruction := { op := Operation.action.code, name := ← u.sigilName }
  match next?.map trimmed with
  | some next =>
    if next.startsWith 0x28 then
      return .withNext { i with params := textParams (← next.group) }
    else return .alone i
  | none => return .alone i

/-- The argument of a named call: a group, a string or an identifier. -/
def callArguments (next : LexUnit) (name : Bytes) : Except Diagnostic (List Bytes) :=
  if next.startsWith 0x28 then next.group
  else if next.startsWith 0x22 then next.literal.map ([·])
  else if isIdentifier next.text then .ok [next.text]
  else .error (next.diagnostic (.badArgument name))

def readNamedCall (u : LexUnit) (next? : Option LexUnit) : Except Diagnostic Reading := do
  let name ← u.sigilName
  match next?.map trimmed with
  | none => throw (u.diagnostic (.missingArgument name))
  | some next =>
    let arguments ← next.callArguments name
    return .withNext
      { op := Operation.namedCall.code, name := name, params := textParams arguments }

def readWait (u : LexUnit) : Except Diagnostic Reading :=
  let digits := u.text.drop 1
  if digits.isEmpty then .error (u.diagnostic .missingDuration)
  else match Numeral.read? 10 Numeral.maxWord (Text.decode digits) with
    | none => .error (u.diagnostic (.badDuration digits))
    | some n => .ok (.alone { op := Operation.wait.code, params := [.int (.ofNat n)] })

/-- A colour, by the hash of its tag. A single `#` starts a remark. -/
def readColor (u : LexUnit) : Except Diagnostic Reading :=
  if u.text.length < 4 then .error (u.diagnostic .shortColor)
  else if u.text[1]? = some 0x23 then
    .ok (.alone
      { op := Operation.color.code, params := [.int (NameHash.ofBytes (u.text.drop 2))] })
  else .ok .nothing

def readActors (u : LexUnit) : Except Diagnostic Reading := do
  let names ← u.group
  match actorFault? true names with
  | some fault => throw (u.diagnostic fault)
  | none => return .alone { op := Operation.actor.code, params := textParams names }

/-- A named call that turns something on or off. -/
def readSwitch (u : LexUnit) (on : Bool) : Except Diagnostic Reading := do
  let name ← u.sigilName
  return .alone { op := Operation.namedCall.code, name := name, params := [.bool on] }

/-- What a trimmed unit says in front of the unit `next?`. -/
def read (u : LexUnit) (next? : Option LexUnit) : Except Diagnostic Reading := do
  match u.text with
  | [] => return .nothing
  | sigil :: _ =>
    match Char.ofUInt8 sigil with
    | '/' | '(' => return .nothing
    | '"' =>
      let text ← u.literal
      return .alone { op := Operation.line.code, params := [.text text] }
    | '@' => u.readAction next?
    | '$' => u.readNamedCall next?
    | '!' => return .alone { op := Operation.emotion.code, name := ← u.sigilName }
    | '\'' => u.readWait
    | '#' => u.readColor
    | '[' => u.readActors
    | '*' => return .alone { op := Operation.noOp.code, mode := Mode.extra }
    | '.' => return .alone { op := Operation.sync.code }
    | ';' => return .alone { op := Operation.userInput.code }
    | '+' => u.readSwitch true
    | '-' => u.readSwitch false
    | _ => throw (u.diagnostic (.unknownSigil sigil))

/-- The instruction of a reading, at the place of the unit it was read from. -/
def placed (u : LexUnit) (r : Reading) : List Instruction :=
  (r.instruction?.map fun i => { i with line := u.line, col := u.col }).toList

end LexUnit

def readUnits : List LexUnit → Except Diagnostic (List Instruction)
  | [] => .ok []
  | u :: us => do
    let r ← u.trimmed.read us.head?
    match us with
    | [] => return u.placed r
    | v :: vs => return u.placed r ++ (← if r.takesNext then readUnits vs else readUnits (v :: vs))

/-- The instructions of a script given as units. There has to be at least one of either. -/
def instructions (units : List LexUnit) : Except Diagnostic (List Instruction) :=
  if units.isEmpty then .error { fault := .nothingToRead }
  else do
    match ← readUnits units with
    | [] => throw { fault := .noInstructions }
    | is => return is

end Dialogue.Script
