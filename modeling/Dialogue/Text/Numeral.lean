/-!
# Numerals

Unsigned numbers written in digits of a base up to sixteen or more, read with an upper limit and
written with a least number of digits.
-/

namespace Dialogue.Numeral

/-- Why a numeral has no value: it is no numeral, or its value is above the limit. -/
inductive Fault where
  | malformed
  | outOfRange
  deriving DecidableEq

/-- The value of a digit or an ASCII letter of either case, the letters continuing the digits. -/
def digitValue? (c : Char) : Option Nat :=
  if '0' ≤ c ∧ c ≤ '9' then some (c.toNat - '0'.toNat)
  else if 'a' ≤ c ∧ c ≤ 'z' then some (c.toNat - 'a'.toNat + 10)
  else if 'A' ≤ c ∧ c ≤ 'Z' then some (c.toNat - 'A'.toNat + 10)
  else none

/-- Continues the value `acc` with digits. Reading stops at the first digit that is wrong or that
takes the value above `limit`. -/
def readFrom (base limit : Nat) : (acc : Nat) → List Char → Except Fault Nat
  | acc, [] => .ok acc
  | acc, c :: cs =>
    match digitValue? c with
    | none => .error .malformed
    | some d =>
      if base ≤ d then .error .malformed
      else if limit < acc * base + d then .error .outOfRange
      else readFrom base limit (acc * base + d) cs

def read (base limit : Nat) (cs : List Char) : Except Fault Nat :=
  if cs.isEmpty then .error .malformed else readFrom base limit 0 cs

def maxWord : Nat := UInt64.size - 1

def read? (base limit : Nat) (cs : List Char) : Option Nat :=
  (read base limit cs).toOption

/-- Whether a character names a base behind a leading zero. -/
def prefixBase? : Char → Option Nat
  | 'b' | 'B' => some 2
  | 'o' | 'O' => some 8
  | 'x' | 'X' => some 16
  | _ => none

/-- A numeral with its base: a leading `0b`, `0o` or `0x` is taken off and tells it, another leading
zero is taken off and means octal. -/
def splitBase : List Char → Nat × List Char
  | '0' :: c :: d :: cs =>
    match prefixBase? c with
    | some base => (base, d :: cs)
    | none => (8, c :: d :: cs)
  | '0' :: cs => (8, cs)
  | cs => (10, cs)

/-- What was seen last of a numeral with underscores between its digits. -/
inductive Seen where
  | start
  | digit
  | underscore
  | other
  deriving DecidableEq

/-- Whether every underscore stands between digits, for a text behind what was seen last. -/
def underscoresBetween (hex : Bool) : Seen → List Char → Bool
  | seen, [] => seen != .underscore
  | seen, c :: cs =>
    if c.isDigit || (hex && ('a' ≤ c.toLower && c.toLower ≤ 'f')) then
      underscoresBetween hex .digit cs
    else if c = '_' then seen == .digit && underscoresBetween hex .underscore cs
    else seen != .underscore && underscoresBetween hex .other cs

/-- Whether every underscore of an unsigned numeral stands between digits. The letter of the base
counts as a digit. -/
def underscoresOk : List Char → Bool
  | '0' :: c :: cs =>
    match prefixBase? c with
    | some base => underscoresBetween (base == 16) .digit cs
    | none => underscoresBetween false .start ('0' :: c :: cs)
  | cs => underscoresBetween false .start cs

/-- The value of a numeral that may tell its base and may have underscores between its digits. -/
def readLiteral (limit : Nat) (cs : List Char) : Except Fault Nat :=
  if cs.isEmpty then .error .malformed
  else
    let (base, digits) := splitBase cs
    match readFrom base limit 0 (digits.filter (· != '_')) with
    | .ok n => if underscoresOk cs then .ok n else .error .malformed
    | .error fault => .error fault

/-- A text without its sign, and whether the sign was a minus. -/
def splitSign : List Char → Option Bool × List Char
  | '+' :: cs => (some false, cs)
  | '-' :: cs => (some true, cs)
  | cs => (none, cs)

def digitsValue (cs : List Char) : Nat :=
  cs.foldl (fun n c => n * 10 + (c.toNat - '0'.toNat)) 0

def padded (width : Nat) (digits : List Char) : String :=
  String.ofList (List.replicate (width - digits.length) '0' ++ digits)

def lowerHex (width n : Nat) : String :=
  padded width (Nat.toDigits 16 n)

def upperHex (width n : Nat) : String :=
  padded width ((Nat.toDigits 16 n).map Char.toUpper)

def decimal (n : Nat) : String :=
  String.ofList (Nat.toDigits 10 n)

def signed : Int → String
  | .ofNat n => decimal n
  | .negSucc n => "-" ++ decimal (n + 1)

end Dialogue.Numeral
