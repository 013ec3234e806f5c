import Dialogue.Config.Basic
import Dialogue.Text.Decimal
import Dialogue.Toml.Datetime
import Dialogue.Toml.Document

/-!
# Loading configurations

A configuration is read from a TOML text over the default one. Keys have to be known and their
values of the right kind.
-/

namespace Dialogue

namespace Toml

def Value.kind : Value → String
  | integer _ => "integer"
  | float _ => "float"
  | datetime _ => "datetime"
  | boolean _ => "boolean"
  | string _ => "string"
  | array => "array"

end Toml

namespace Config

inductive FieldType where
  | word
  | text
  | flag
  | record
  deriving DecidableEq

def FieldType.name : FieldType → String
  | word => "uint64"
  | text => "string"
  | flag => "bool"
  | record => "config.ModuleConfig"

inductive LoadFault where
  | toml (fault : Toml.Fault)
  | unknownField (name : List Char) (record : String)
  /-- A field is given a value of another kind. -/
  | wrongKind (field kind : String) (type : FieldType)
  /-- A field is given an array, or an array of tables. -/
  | notSlice (field kind : String) (type : FieldType)
  /-- A field is given a table. -/
  | notRecord (type : FieldType)
  | outOfRange (field : String) (digits : List Char)
  | badDigits (field : String) (digits : List Char)
  /-- A number with a fraction or an exponent is too great. -/
  | floatRange (field : String) (text : List Char)
  | badTime (field : String) (text : List Char) (fault : Toml.TimeFault)
  deriving DecidableEq

def LoadFault.message : LoadFault → String
  | toml fault => fault.message
  | unknownField name record =>
    "field '" ++ String.ofList name ++ "' is not defined in " ++ record
  | wrongKind field kind type => "(" ++ field ++ ") " ++ cannot kind type
  | notSlice field kind type => "(" ++ field ++ ") " ++ cannot kind type ++ " (need slice)"
  | notRecord type => cannot "table" type ++ " (need struct or map)"
  | outOfRange field digits =>
    "(" ++ field ++ ") value " ++ String.ofList digits ++ " is out of range for uint64"
  | badDigits field digits =>
    "(" ++ field ++ ") strconv.ParseUint: parsing " ++ Quoted.text (Text.encode digits)
      ++ ": invalid syntax"
  | floatRange field text =>
    "(" ++ field ++ ") strconv.ParseFloat: parsing " ++ Quoted.text (Text.encode text)
      ++ ": value out of range"
  | badTime field text fault => "(" ++ field ++ ") " ++ fault.message text
where
  cannot (kind : String) (type : FieldType) : String :=
    "cannot unmarshal TOML " ++ kind ++ " into " ++ type.name

inductive LoadError where
  /-- A fault, with its line where it has one. -/
  | fault (line : Option Nat) (what : LoadFault)
  | byteOrder (e : UnknownByteOrder)
  deriving DecidableEq

def LoadError.message (file : Bytes) : LoadError → Bytes
  | fault line what =>
    file ++ Text.utf8 (", line " ++ ((line.map Numeral.decimal).getD "?") ++ ": " ++ what.message)
  | byteOrder e => file ++ Text.utf8 (": " ++ e.message)

/-- Whether the text of a number is too great for double precision. -/
def isTooGreat (text : List Char) : Bool :=
  ((Decimal.ofText? text).map Decimal.overflows).getD false

/-- The value of a field without parts. Numbers and times have to be within their range, whatever
kind the field is of. -/
def leaf (field : String) (type : FieldType) (node : Toml.Node) :
    Except LoadFault Toml.Value :=
  match node with
  | .table _ _ => .error (.notRecord type)
  | .tables _ _ => .error (.notSlice field "array table" type)
  | .value _ .array => .error (.notSlice field "array" type)
  | .value _ (.float text) =>
    if isTooGreat text then .error (.floatRange field text) else .ok (.float text)
  | .value _ (.datetime text) =>
    match Toml.Datetime.fault? text with
    | some fault => .error (.badTime field text fault)
    | none => .ok (.datetime text)
  | .value _ v => .ok v

def wordField (field : String) (node : Toml.Node) : Except LoadFault UInt64 := do
  match ← leaf field .word node with
  | .integer digits =>
    match Numeral.read 10 Numeral.maxWord digits with
    | .ok n => return .ofNat n
    | .error .outOfRange => throw (.outOfRange field digits)
    | .error .malformed => throw (.badDigits field digits)
  | v => throw (.wrongKind field v.kind .word)

def textField (field : String) (node : Toml.Node) : Except LoadFault Bytes := do
  match ← leaf field .text node with
  | .string cs => return Text.encode cs
  | v => throw (.wrongKind field v.kind .text)

def flagField (field : String) (node : Toml.Node) : Except LoadFault Bool := do
  match ← leaf field .flag node with
  | .boolean b => return b
  | v => throw (.wrongKind field v.kind .flag)

def setField (c : Config) (name : List Char) (node : Toml.Node) : Except LoadFault Config :=
  let field := "config.ModuleConfig." ++ String.ofList name
  match String.ofList name with
  | "Version" => (wordField field node).map fun v => { c with version := v }
  | "MinVersion" => (wordField field node).map fun v => { c with minVersion := v }
  | "Flags" => (wordField field node).map fun v => { c with flags := v }
  | "ByteOrder" => (textField field node).map fun v => { c with byteOrder := v }
  | "LegacyDataSize" => (flagField field node).map fun v => { c with legacyDataSize := v }
  | _ => .error (.unknownField name "config.ModuleConfig")

def setFields (c : Config) : List (List Char × Toml.Node) → Except LoadError Config
  | [] => .ok c
  | (name, node) :: fields =>
    match c.setField name node with
    | .ok c => c.setFields fields
    | .error fault => .error (.fault (some node.line) fault)

/-- Sets what the entries of a document give. The only one that there can be is the table of the
module's fields. -/
def setEntries (c : Config) (d : Toml.Document) :
    List (List Char × Toml.Node) → Except LoadError Config
  | [] => .ok c
  | (name, node) :: entries =>
    if String.ofList name = "Module" then
      match node with
      | .table _ _ => do
        let c ← c.setFields (d.fields [(name, 0)])
        c.setEntries d entries
      | _ =>
        match leaf "config.Config.Module" .record node with
        | .ok v =>
          .error (.fault (some node.line) (.wrongKind "config.Config.Module" v.kind .record))
        | .error fault => .error (.fault (some node.line) fault)
    else .error (.fault (some node.line) (.unknownField name "config.Config"))

def load (source : Bytes) : Except LoadError Config :=
  match Toml.parse (Text.decode source) with
  | .error e => .error (.fault e.line (.toml e.fault))
  | .ok d => do
    let c ← setEntries {} d (d.fields [])
    match ByteOrder.ofName c.byteOrder with
    | .ok _ => return c
    | .error e => throw (.byteOrder e)

end Config

end Dialogue
