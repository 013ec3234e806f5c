import Dialogue.Text.Quoted

/-!
# Faults of scripts

What can be wrong with a script, and how it is worded.
-/

namespace Dialogue.Script

/-- The part of the language that a fault is about. -/
inductive Kind where
  | lexical
  | grammar
  | parameter
  | emptyProgram
  | unspecified
  deriving DecidableEq

def Kind.name : Kind → String
  | lexical => "lex error"
  | grammar => "syntax error"
  | parameter => "param error"
  | emptyProgram => "empty program"
  | unspecified => "compile error"

inductive Fault where
  /-- The source has no lexical unit. -/
  | noUnits
  /-- There are no units to read instructions from. -/
  | nothingToRead
  /-- All units are comments and the like. -/
  | noInstructions
  /-- No instruction starts with this byte. -/
  | unknownSigil (sigil : UInt8)
  /-- A sigil stands alone where a name has to follow. -/
  | missingName (sigil : Bytes)
  | missingDuration
  | badDuration (digits : Bytes)
  | shortColor
  /-- A named call is the last unit. -/
  | missingArgument (name : Bytes)
  /-- A named call is followed by a unit that is no argument. -/
  | badArgument (name : Bytes)
  /-- The wildcard stands after another actor. -/
  | lateWildcard
  | badActorName (name : Bytes)
  | malformedGroup (group : Bytes)
  /-- A parameter without quotes holds white space. -/
  | spaceInBare (piece : Bytes)
  | unterminatedString (text : Bytes)
  | nulInString (text : Bytes)
  /-- A fault given by its kind and its wording. -/
  | stated (kind : Kind) (message : Bytes)
  deriving DecidableEq

namespace Fault

def kind : Fault → Kind
  | noUnits | nothingToRead => .lexical
  | noInstructions => .emptyProgram
  | unknownSigil _ | missingName _ | missingDuration | badDuration _ | shortColor
  | missingArgument _ | badArgument _ | lateWildcard | badActorName _ => .grammar
  | malformedGroup _ | spaceInBare _ | unterminatedString _ | nulInString _ => .parameter
  | stated kind _ => kind

def message : Fault → Bytes
  | noUnits => Text.utf8 "source contains no lexical units"
  | nothingToRead => Text.utf8 "no lexical units to classify"
  | noInstructions => Text.utf8 "script produced no instructions"
  | unknownSigil b =>
    Text.utf8 ("unrecognized sigil " ++ Quoted.single (Char.ofUInt8 b))
  | missingName sigil => Text.utf8 (Quoted.text sigil ++ " needs a name")
  | missingDuration => Text.utf8 "wait needs a duration"
  | badDuration digits => Text.utf8 ("invalid wait duration " ++ Quoted.text digits)
  | shortColor => Text.utf8 "color tag too short"
  | missingArgument name => Text.utf8 "named call $" ++ name ++ Text.utf8 " needs an argument"
  | badArgument name => Text.utf8 "invalid argument for named call $" ++ name
  | lateWildcard => Text.utf8 "... must be the first actor"
  | badActorName name => Text.utf8 ("invalid actor name " ++ Quoted.text name)
  | malformedGroup group => Text.utf8 "malformed parameter group " ++ group
  | spaceInBare piece => Text.utf8 "whitespace in bare parameter " ++ piece
  | unterminatedString text => Text.utf8 "unterminated string " ++ text
  | nulInString text => Text.utf8 "NUL character in string " ++ text
  | stated _ message => message

end Fault

end Dialogue.Script
