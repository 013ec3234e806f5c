import Dialogue.Command.Flags
import Dialogue.Config.Basic

/-!
# Command lines

The four commands and what they can be told.
-/

namespace Dialogue.Command

structure Settings where
  /-- The path of a configuration file; empty for none. -/
  config : Bytes := []
  byteOrder : Option Bytes := none
  legacyDataSize : Option Bool := none
  flags : Option UInt64 := none
  isDump : Bool := false
  format : Bytes := Text.utf8 "table"

inductive Verb where
  | compile
  | disassemble
  | repl
  | dumpConfig
  deriving DecidableEq

inductive CommandLine where
  | run (isVerbose : Bool) (verb : Verb) (settings : Settings) (arguments : List Bytes)
  | help

def Verb.ofName? (name : Bytes) : Option Verb :=
  if name = Text.utf8 "compile" then some .compile
  else if name = Text.utf8 "disasm" then some .disassemble
  else if name = Text.utf8 "repl" then some .repl
  else if name = Text.utf8 "dumpconfig" then some .dumpConfig
  else none

def helpFlags : List (String × FlagKind) :=
  [("help", .switch), ("h", .switch)]

def globalFlags : List (String × FlagKind) :=
  [("verbose", .switch), ("v", .switch)] ++ helpFlags

def commonFlags : List (String × FlagKind) :=
  [("config", .text), ("byte-order", .text), ("legacy-data-size", .switch)] ++ helpFlags

def Verb.flags : Verb → List (String × FlagKind)
  | compile => commonFlags ++ [("flags", .word), ("dump", .switch)]
  | disassemble => commonFlags ++ [("format", .text)]
  | repl => commonFlags
  | dumpConfig => commonFlags ++ [("flags", .word)]

def settingsOf (values : FlagValues) : Settings where
  config := (values.text? "config").getD []
  byteOrder := values.text? "byte-order"
  legacyDataSize := values.switch? "legacy-data-size"
  flags := values.word? "flags"
  isDump := (values.switch? "dump").getD false
  format := (values.text? "format").getD (Text.utf8 "table")

def asksHelp (values : FlagValues) : Bool :=
  (values.switch? "help").getD false || (values.switch? "h").getD false

/-- Refuses a flag that is given by both of its names. -/
def checkForms (values : FlagValues) (name short : String) : Except UsageError Unit :=
  if (values.get? name).isSome ∧ (values.get? short).isSome then .error (.twoForms short name)
  else .ok ()

/-- The flags of a command and the arguments behind them. There are none where the flags ask for
help. -/
def readCommand (known : List (String × FlagKind)) (arguments : List Bytes) :
    Except UsageError (Option (FlagValues × List Bytes)) := do
  let r := readFlags known arguments
  let rest ← r.rest
  checkForms r.values "help" "h"
  return if asksHelp r.values then none else some (r.values, rest)

def isHelpName (name : Bytes) : Bool :=
  name == Text.utf8 "help" || name == Text.utf8 "h"

/-- Help on a command, or on all if none is named. -/
def helpOn (topic : Bytes) : Except UsageError CommandLine :=
  if topic.isEmpty || isHelpName topic || (Verb.ofName? topic).isSome then .ok .help
  else .error (.unknownCommand topic)

/-- Reads a command line. A flag in front of the command that is given by both of its names is
refused before one that is wrong. -/
def parse (arguments : List Bytes) : Except UsageError CommandLine := do
  let globals := readFlags globalFlags arguments
  checkForms globals.values "verbose" "v"
  checkForms globals.values "help" "h"
  let arguments ← globals.rest
  if asksHelp globals.values then return .help
  match arguments with
  | [] => return .help
  | name :: arguments =>
    match Verb.ofName? name with
    | some verb =>
      match ← readCommand verb.flags arguments with
      | none => return .help
      | some (values, arguments) =>
        let isVerbose := (globals.values.switch? "verbose").getD false
          || (globals.values.switch? "v").getD false
        return .run isVerbose verb (settingsOf values) arguments
    | none =>
      if isHelpName name then
        match ← readCommand helpFlags arguments with
        | none => return .help
        | some (_, arguments) => helpOn (arguments.head?.getD [])
      else helpOn name

def Settings.applyTo (s : Settings) (c : Config) : Config :=
  { c with
    byteOrder := s.byteOrder.getD c.byteOrder
    legacyDataSize := s.legacyDataSize.getD c.legacyDataSize
    flags := s.flags.getD c.flags }

end Dialogue.Command
