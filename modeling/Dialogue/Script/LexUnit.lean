import Dialogue.Script.Diagnostic
import Dialogue.Text.WordChar

/-!
# Lexical units

A script is a row of lexical units with anything else between them dropped: word runs, the signs
`*`, `.` and `;`, strings, groups in parentheses or brackets, and comments. A unit keeps its text
and the place where it starts.
-/

namespace Dialogue.Script

/-- A place in a source, counted in code points. Line and column count from one. -/
structure Position where
  offset : Nat := 0
  line : Nat := 1
  col : Nat := 1
  deriving DecidableEq

def Position.advance (p : Position) (c : Char) : Position :=
  if c = '\n' then ⟨p.offset + 1, p.line + 1, 1⟩ else ⟨p.offset + 1, p.line, p.col + 1⟩

structure LexUnit where
  text : Bytes
  offset : Nat := 0
  line : Int := 0
  col : Int := 0
  deriving DecidableEq

namespace LexUnit

def isWordRun (c : Char) : Bool :=
  Text.isWordChar c || c ∈ ['&', '!', '@', '#', '$', '%', '>', '<', '+', '-', '_', '\'']

/-- Whether a character is a unit by itself. -/
def isSign (c : Char) : Bool :=
  c == '*' || c == '.' || c == ';'

/-- The number of characters up to and including the first one equal to `close`. -/
def upTo? (close : Char) : List Char → Option Nat
  | [] => none
  | c :: cs => if c = close then some 1 else (upTo? close cs).map (· + 1)

/-- The number of characters up to and including the first `*/`. -/
def upToCommentEnd? : List Char → Option Nat
  | [] => none
  | '*' :: '/' :: _ => some 2
  | _ :: cs => (upToCommentEnd? cs).map (· + 1)

/-- The number of characters up to and including the quote that ends a string. A backslash takes the
character after it along, which may not be the end of a line. -/
def upToQuote? : List Char → Option Nat
  | [] => none
  | '"' :: _ => some 1
  | '\\' :: c :: cs => if c = '\n' then none else (upToQuote? cs).map (· + 2)
  | '\\' :: [] => none
  | _ :: cs => (upToQuote? cs).map (· + 1)

/-- The length of the unit at the start of `cs`, if one starts there. A quote right after a
backslash starts none. -/
def lengthAt? (prev : Option Char) : List Char → Option Nat
  | [] => none
  | '"' :: cs => if prev = some '\\' then none else (upToQuote? cs).map (· + 1)
  | '(' :: cs => (upTo? ')' cs).map (· + 1)
  | '[' :: cs => (upTo? ']' cs).map (· + 1)
  | '/' :: '/' :: cs => some ((cs.takeWhile (· != '\n')).length + 2)
  | '/' :: '*' :: cs => (upToCommentEnd? cs).map (· + 2)
  | c :: cs =>
    if isSign c then some 1
    else if isWordRun c then some ((cs.takeWhile isWordRun).length + 1)
    else none

/-- The units of the code points that follow `prev` at `pos`. The first `skip` of them still belong
to the unit before. -/
def scan : (skip : Nat) → (prev : Option Char) → (pos : Position) → List Char → List LexUnit
  | _, _, _, [] => []
  | skip + 1, _, pos, c :: cs => scan skip (some c) (pos.advance c) cs
  | 0, prev, pos, c :: cs =>
    match lengthAt? prev (c :: cs) with
    | none => scan 0 (some c) (pos.advance c) cs
    | some n =>
      { text := Text.encode ((c :: cs).take n), offset := pos.offset, line := pos.line,
        col := pos.col } :: scan (n - 1) (some c) (pos.advance c) cs

def ofSource (source : Bytes) : Except Diagnostic (List LexUnit) :=
  match scan 0 none {} (Text.decode source) with
  | [] => .error { fault := .noUnits }
  | units => .ok units

def diagnostic (u : LexUnit) (fault : Fault) : Diagnostic where
  fault := fault
  line := u.line
  col := u.col
  unit := u.text

def display (u : LexUnit) : String :=
  Numeral.signed u.line ++ ":" ++ Numeral.signed u.col ++ " " ++ Quoted.text u.text

end LexUnit

end Dialogue.Script
