import Dialogue.Text.Quoted

/-!
# Flags

Flags stand in front of the other arguments of a command line, behind one or two hyphens. A value
follows an equals sign or is the next argument; a switch needs none.
-/

namespace Dialogue.Command

inductive FlagKind where
  | switch
  | text
  | word
  deriving DecidableEq

inductive FlagValue where
  | switch (on : Bool)
  | text (s : Bytes)
  | word (w : UInt64)
  deriving DecidableEq

inductive UsageError where
  | badFlag (argument : Bytes)
  | unknownFlag (name : Bytes)
  | missingValue (name : Bytes)
  | badSwitch (name value : Bytes)
  | badValue (name value : Bytes) (fault : Numeral.Fault)
  /-- A flag is given by both of its names. -/
  | twoForms (name other : String)
  | unknownCommand (name : Bytes)
  deriving DecidableEq

def UsageError.message : UsageError → Bytes
  | badFlag argument => Text.utf8 "bad flag syntax: " ++ argument
  | unknownFlag name => Text.utf8 "flag provided but not defined: -" ++ name
  | missingValue name => Text.utf8 "flag needs an argument: -" ++ name
  | badSwitch name value =>
    Text.utf8 ("invalid boolean value " ++ Quoted.text value ++ " for -") ++ name
      ++ Text.utf8 ": parse error"
  | badValue name value fault =>
    Text.utf8 ("invalid value " ++ Quoted.text value ++ " for flag -") ++ name
      ++ Text.utf8 (match fault with
        | .malformed => ": parse error"
        | .outOfRange => ": value out of range")
  | twoForms name other =>
    Text.utf8 ("Cannot use two forms of the same flag: " ++ name ++ " " ++ other)
  | unknownCommand name => Text.utf8 "No help topic for '" ++ name ++ Text.utf8 "'"

abbrev FlagValues := List (String × FlagValue)

def switchValue? (s : Bytes) : Option Bool :=
  let is (words : List String) := words.any fun w => Text.utf8 w == s
  if is ["1", "t", "T", "TRUE", "true", "True"] then some true
  else if is ["0", "f", "F", "FALSE", "false", "False"] then some false
  else none

def readValue (kind : FlagKind) (name value : Bytes) : Except UsageError FlagValue :=
  match kind with
  | .switch =>
    match switchValue? value with
    | some on => .ok (.switch on)
    | none => .error (.badSwitch name value)
  | .text => .ok (.text value)
  | .word =>
    match Numeral.readLiteral Numeral.maxWord (Text.decode value) with
    | .ok n => .ok (.word (.ofNat n))
    | .error fault => .error (.badValue name value fault)

/-- A flag without its hyphens: its name, and the value behind the equals sign if there is one. -/
def splitFlag (flag : Bytes) : Bytes × Option Bytes :=
  let name := flag.take 1 ++ (flag.drop 1).takeWhile (· != 0x3D)
  match flag.drop name.length with
  | [] => (name, none)
  | _ :: value => (name, some value)

/-- The text behind the hyphens of a flag. It is none for an argument that is no flag. -/
def flagText? : Bytes → Option Bytes
  | 0x2D :: 0x2D :: rest => some rest
  | 0x2D :: b :: rest => some (b :: rest)
  | _ => none

/-- What the first argument of a command line is. -/
inductive FlagStep where
  /-- No flag: the arguments start here. -/
  | stop
  /-- The mark behind the flags. -/
  | endMark
  /-- A flag that comes with its value. -/
  | complete (key : String) (value : FlagValue)
  /-- A flag whose value is the next argument. -/
  | awaiting (key : String) (kind : FlagKind) (name : Bytes)

def flagStep (known : List (String × FlagKind)) (argument : Bytes) :
    Except UsageError FlagStep := do
  match flagText? argument with
  | none => return .stop
  | some [] => return .endMark
  | some (b :: flag) =>
    if b = 0x2D ∨ b = 0x3D then throw (.badFlag argument)
    let (name, value?) := splitFlag (b :: flag)
    match known.find? fun k => Text.utf8 k.1 == name with
    | none => throw (.unknownFlag name)
    | some (key, kind) =>
      match kind, value? with
      | .switch, none => return .complete key (.switch true)
      | kind, none => return .awaiting key kind name
      | kind, some value => return .complete key (← readValue kind name value)

/-- The flags that were read, up to the first that is wrong, and the arguments behind them. -/
structure FlagReading where
  values : FlagValues
  rest : Except UsageError (List Bytes)

def FlagReading.cons (key : String) (value : FlagValue) (r : FlagReading) : FlagReading :=
  { r with values := (key, value) :: r.values }

/-- Reads the flags in front of the arguments. Two hyphens alone end the flags. -/
def readFlags (known : List (String × FlagKind)) : List Bytes → FlagReading
  | [] => ⟨[], .ok []⟩
  | argument :: arguments =>
    match flagStep known argument with
    | .error e => ⟨[], .error e⟩
    | .ok .stop => ⟨[], .ok (argument :: arguments)⟩
    | .ok .endMark => ⟨[], .ok arguments⟩
    | .ok (.complete key value) => (readFlags known arguments).cons key value
    | .ok (.awaiting key kind name) =>
      match arguments with
      | [] => ⟨[], .error (.missingValue name)⟩
      | value :: arguments =>
        match readValue kind name value with
        | .error e => ⟨[], .error e⟩
        | .ok value => (readFlags known arguments).cons key value

namespace FlagValues

/-- The last value that a flag was given. -/
def get? (values : FlagValues) (name : String) : Option FlagValue :=
  ((values.filter fun v => v.1 == name).getLast?).map Prod.snd

def switch? (values : FlagValues) (name : String) : Option Bool :=
  match values.get? name with
  | some (.switch on) => some on
  | _ => none

def text? (values : FlagValues) (name : String) : Option Bytes :=
  match values.get? name with
  | some (.text s) => some s
  | _ => none

def word? (values : FlagValues) (name : String) : Option UInt64 :=
  match values.get? name with
  | some (.word w) => some w
  | _ => none

end FlagValues

end Dialogue.Command
