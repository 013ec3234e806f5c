import Dialogue.Script.Fault

/-!
# Diagnostics

A fault with the place it was found at, worded as a message or shown below the lines of the source
it is about.
-/

namespace Dialogue.Script

/-- A fault and its place. Line and column count from one, and line zero stands for no place. -/
structure Diagnostic where
  fault : Fault
  line : Int := 0
  col : Int := 0
  unit : Bytes := []
  deriving DecidableEq

def Diagnostic.message (d : Diagnostic) : Bytes :=
  Text.utf8 d.fault.kind.name
    ++ (if 0 < d.line then
          Text.utf8 (" at " ++ Numeral.signed d.line ++ ":" ++ Numeral.signed d.col)
        else [])
    ++ (if d.fault.message.isEmpty then [] else Text.utf8 ": " ++ d.fault.message)
    ++ (if d.unit.isEmpty then [] else Text.utf8 (" (in " ++ Quoted.text d.unit ++ ")"))

/-- A number right-aligned in at least four columns. -/
def lineNumber (n : Nat) : String :=
  let digits := (Numeral.decimal n).toList
  String.ofList (List.replicate (4 - digits.length) ' ' ++ digits)

/-- A line of the source behind its number, which counts from one. Nothing is shown for a line that
does not exist. -/
def numberedLine (lines : List Bytes) (n : Nat) : Bytes :=
  match n with
  | 0 => []
  | i + 1 =>
    match lines[i]? with
    | some text => Text.utf8 (lineNumber n ++ " | ") ++ text ++ Text.utf8 "\n"
    | none => []

def caretLine (col : Nat) : Bytes :=
  Text.utf8 "     | " ++ List.replicate (col - 1) 0x20 ++ Text.utf8 "^\n"

/-- A diagnostic with the line it is about, a caret under its column, and the lines before and
after. A line beyond the end stands for the last one, a column below one for the first. There is no
excerpt for a negative line. -/
def Diagnostic.excerpt? (d : Diagnostic) (source : Bytes) : Option Bytes :=
  if d.line < 0 then none
  else
    let lines := source.splitOn 0x0A
    let line := min d.line.toNat lines.length
    let col := max d.col.toNat 1
    some (d.message ++ Text.utf8 "\n\n" ++ numberedLine lines (line - 1) ++ numberedLine lines line
      ++ caretLine col ++ numberedLine lines (line + 1))

/-- An error as a program passes it on: a diagnostic, a plain text, or either of them with a word on
where it arose in front. -/
inductive Failure where
  | diagnostic (d : Diagnostic)
  | plain (text : Bytes)
  | within (context : Bytes) (inner : Failure)
  deriving DecidableEq

namespace Failure

def message : Failure → Bytes
  | diagnostic d => d.message
  | plain text => text
  | within context inner => context ++ Text.utf8 ": " ++ inner.message

def diagnostic? : Failure → Option Diagnostic
  | diagnostic d => some d
  | plain _ => none
  | within _ inner => inner.diagnostic?

def isKind (e : Failure) (kind : Kind) : Bool :=
  match e.diagnostic? with
  | some d => d.fault.kind == kind
  | none => false

/-- A failure as it is shown to the author of the source: with an excerpt where it has a place, as
its plain message otherwise. -/
def snippet? (e : Failure) (source : Bytes) : Option Bytes :=
  match e.diagnostic? with
  | none => some e.message
  | some d => if d.line = 0 then some e.message else d.excerpt? source

end Failure

end Dialogue.Script
