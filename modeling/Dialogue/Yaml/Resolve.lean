import Dialogue.Calendar
import Dialogue.Text.Decimal

/-!
# Plain scalars that are not strings

A plain scalar of a YAML document may be read as something else than a string: a null, a truth
value, a number or a point in time. Such a text has to be quoted.
-/

namespace Dialogue.Yaml

/-- The words that stand for something else than themselves. -/
def reservedWords : List String :=
  ["", "~", "null", "Null", "NULL", "true", "True", "TRUE", "false", "False", "FALSE",
    ".nan", ".NaN", ".NAN", ".inf", ".Inf", ".INF", "+.inf", "+.Inf", "+.INF",
    "-.inf", "-.Inf", "-.INF", "y", "Y", "yes", "Yes", "YES", "on", "On", "ON",
    "n", "N", "no", "No", "NO", "off", "Off", "OFF"]

/-! ## Integers -/

/-- Whether a text is an integer in 64 bits, with or without a sign. It may tell its base, and the
base may come before the sign. -/
def isInteger (cs : List Char) : Bool :=
  let fits (limit : Nat) (r : List Char → Except Numeral.Fault Nat) (ds : List Char) :=
    match r ds with
    | .ok n => n ≤ limit
    | .error _ => false
  let literal := Numeral.readLiteral Numeral.maxWord
  let signed (r : List Char → Except Numeral.Fault Nat) (ds : List Char) :=
    match Numeral.splitSign ds with
    | (some true, ds) => fits 0x8000000000000000 r ds
    | (some false, ds) => fits 0x7FFFFFFFFFFFFFFF r ds
    | (none, ds) => fits Numeral.maxWord r ds
  signed literal cs || match cs with
    | '0' :: 'b' :: ds => signed (Numeral.read 2 Numeral.maxWord) ds
    | '0' :: 'o' :: ds => signed (Numeral.read 8 Numeral.maxWord) ds
    | _ => false

/-! ## Floating-point numbers -/

def isFloat (cs : List Char) : Bool :=
  match Decimal.ofText? cs with
  | some d => !d.overflows
  | none => false

/-! ## Numbers to base sixty -/

/-- Whether a text is a number below sixty in one or two digits. -/
def isSixtieth : List Char → Bool
  | [a] => a.isDigit
  | [a, b] => '0' ≤ a && a ≤ '5' && b.isDigit
  | _ => false

def isDigitRun (cs : List Char) : Bool :=
  cs.all fun c => c.isDigit || c == '_'

/-- Whether a text ends a number to base sixty: a sixtieth, and a fraction if any. -/
def isLastSixtieth (cs : List Char) : Bool :=
  isSixtieth (cs.takeWhile (· != '.')) && isDigitRun ((cs.dropWhile (· != '.')).drop 1)

/-- Whether a text is a number to base sixty: digits, then sixtieths behind colons. -/
def isBaseSixty (cs : List Char) : Bool :=
  match (Numeral.splitSign cs).2.splitOn ':' with
  | (d :: ds) :: parts =>
    d.isDigit && isDigitRun ds && !parts.isEmpty && parts.dropLast.all isSixtieth
      && isLastSixtieth (parts.getLast?.getD [])
  | _ => false

/-! ## Points in time -/

def shortNumber? : List Char → Option (Nat × List Char)
  | [] => none
  | a :: cs =>
    let value (c : Char) := c.toNat - '0'.toNat
    if !a.isDigit then none
    else match cs with
      | b :: rest => if b.isDigit then some (value a * 10 + value b, rest) else some (value a, cs)
      | [] => some (value a, [])

/-- Whether a text is empty or a time zone by hours and minutes. -/
def isZone : List Char → Bool
  | ['Z'] => true
  | [sign, h₁, h₂, ':', m₁, m₂] =>
    let two (a b : Char) (limit : Nat) :=
      a.isDigit && b.isDigit
        && (a.toNat - '0'.toNat) * 10 + (b.toNat - '0'.toNat) ≤ limit
    (sign == '+' || sign == '-') && two h₁ h₂ 24 && two m₁ m₂ 60
  | _ => false

/-- What follows the hours, minutes and seconds at the start of a text, and a fraction of the
seconds if any. -/
def clockRest? (cs : List Char) : Option (List Char) := do
  let (hour, cs) ← shortNumber? cs
  let ':' :: cs := cs | none
  let (minute, cs) ← shortNumber? cs
  let ':' :: cs := cs | none
  let (second, cs) ← shortNumber? cs
  if 24 ≤ hour ∨ 60 ≤ minute ∨ 60 ≤ second then none
  else match cs with
    | point :: d :: rest =>
      if (point = '.' ∨ point = ',') ∧ d.isDigit then some (rest.dropWhile Char.isDigit)
      else some cs
    | _ => some cs

/-- Whether a text is nothing, a time with a zone behind a `T`, or a time without one behind
blanks. -/
def isTimeOfDay : List Char → Bool
  | [] => true
  | c :: cs =>
    if c = 'T' ∨ c = 't' then ((clockRest? cs).map isZone).getD false
    else if c = ' ' then ((clockRest? (cs.dropWhile (· == ' '))).map List.isEmpty).getD false
    else false

/-- Whether a text is a date, or a date and a time. The year has four digits. -/
def isTimestamp (cs : List Char) : Bool :=
  let year := cs.takeWhile Char.isDigit
  let parsed := do
    let '-' :: cs := cs.dropWhile Char.isDigit | none
    let (month, cs) ← shortNumber? cs
    let '-' :: cs := cs | none
    let (day, cs) ← shortNumber? cs
    let number ← Numeral.read? 10 9999 year
    some (1 ≤ month && month ≤ 12 && Calendar.hasDay number month day && isTimeOfDay cs)
  year.length == 4 && parsed.getD false

/-! ## All together -/

/-- Whether a text would be read as something else than a string. -/
def isReserved (cs : List Char) : Bool :=
  reservedWords.any (·.toList == cs) || match cs with
    | [] => true
    | c :: _ =>
      if c = '.' then Numeral.underscoresOk cs && isFloat (cs.filter (· != '_'))
      else if c.isDigit || c == '+' || c == '-' then
        let digits := cs.filter (· != '_')
        isTimestamp cs || isInteger digits || isFloat digits || isBaseSixty cs
      else false

end Dialogue.Yaml
