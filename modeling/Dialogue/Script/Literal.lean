import Dialogue.Script.Fault
import Dialogue.Text.CharName

/-!
# String literals

A string of a script stands between double quotes. White space at its ends is dropped and its
escapes are replaced by the characters they stand for.
-/

namespace Dialogue.Script

/-- An escape: the number of characters it takes, and the character it stands for. One that names no
character stands for itself. -/
structure Escape where
  length : Nat
  meaning : Option Char
  deriving DecidableEq

namespace Escape

def single? : Char → Option Char
  | '\\' => some '\\'
  | '\'' => some '\''
  | '"' => some '"'
  | 'a' => some '\x07'
  | 'b' => some '\x08'
  | 'f' => some '\x0c'
  | 'n' => some '\n'
  | 'r' => some '\r'
  | 't' => some '\t'
  | 'v' => some '\x0b'
  | _ => none

def isOctal (c : Char) : Bool :=
  '0' ≤ c && c ≤ '7'

/-- The escape by `k` hexadecimal digits at the start of `rest`, behind backslash and letter. It
takes any `k` characters of one line. -/
def hexadecimal? (k : Nat) (rest : List Char) : Option Escape :=
  let digits := rest.take k
  if digits.length = k ∧ '\n' ∉ digits then
    some ⟨k + 2, (Numeral.read? 16 (UInt32.size - 1) digits).bind (Text.scalar? 0)⟩
  else none

/-- The escape by up to three octal digits, behind the backslash. -/
def octal (rest : List Char) : Escape :=
  let digits := (rest.take 3).takeWhile isOctal
  ⟨digits.length + 1, (Numeral.read? 8 (UInt32.size - 1) digits).bind (Text.scalar? 0)⟩

/-- The escape by a name in braces, behind the opening brace. -/
def named? [CharName.Names] (rest : List Char) : Option Escape :=
  let name := rest.takeWhile (· != '}')
  if name.isEmpty ∨ name.length = rest.length then none
  else some ⟨name.length + 4, CharName.lookup? name⟩

def at? [CharName.Names] : List Char → Option Escape
  | '\\' :: 'U' :: rest => hexadecimal? 8 rest
  | '\\' :: 'u' :: rest => hexadecimal? 4 rest
  | '\\' :: 'x' :: rest => hexadecimal? 2 rest
  | '\\' :: 'N' :: '{' :: rest => named? rest
  | '\\' :: c :: rest =>
    if isOctal c then some (octal (c :: rest))
    else (single? c).map fun meaning => ⟨2, some meaning⟩
  | _ => none

end Escape

namespace Literal

def hasEscape [CharName.Names] : List Char → Bool
  | [] => false
  | c :: cs => (Escape.at? (c :: cs)).isSome || hasEscape cs

/-- Replaces the escapes. The first `skip` characters belong to the escape before and are
dropped. -/
def expand [CharName.Names] : (skip : Nat) → List Char → List Char
  | _, [] => []
  | skip + 1, _ :: cs => expand skip cs
  | 0, c :: cs =>
    match Escape.at? (c :: cs) with
    | none => c :: expand 0 cs
    | some e =>
      (match e.meaning with
        | some meaning => [meaning]
        | none => (c :: cs).take e.length) ++ expand (e.length - 1) cs

/-- A text with its escapes replaced. A text without escapes keeps its bytes, in any other stray
bytes are read as U+FFFD. -/
def unescape [CharName.Names] (bs : Bytes) : Bytes :=
  let cs := Text.decode bs
  if hasEscape cs then Text.encode (expand 0 cs) else bs

/-- The text between the first and the last of its bytes, if both are double quotes. -/
def between? (bs : Bytes) : Option Bytes :=
  match bs with
  | 0x22 :: rest => if rest.getLast? = some 0x22 then some rest.dropLast else none
  | _ => none

/-- The text a string literal stands for. It may not hold a zero byte. -/
def read [CharName.Names] (bs : Bytes) : Except Fault Bytes :=
  match between? bs with
  | none => .error (.unterminatedString bs)
  | some inner =>
    let text := unescape (Text.trim inner)
    if 0 ∈ text then .error (.nulInString bs) else .ok text

end Literal

end Dialogue.Script
