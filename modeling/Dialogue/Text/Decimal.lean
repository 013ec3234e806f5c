import Dialogue.Text.Numeral

/-!
# Decimal numbers

Numbers with a fraction and an exponent, and whether they are within the range of double precision.
-/

namespace Dialogue

/-- A decimal number without its sign: the digits before and after the point and the exponent. -/
structure Decimal where
  whole : List Char
  fraction : List Char
  exponent : Int
  deriving DecidableEq

namespace Decimal

/-- The size at which the digits of an exponent stop counting. -/
def exponentLimit : Nat := 10000

/-- The value of the digits of an exponent. Once the limit is reached, further digits are passed
over. -/
def exponentValue (digits : List Char) : Nat :=
  digits.foldl
    (fun n c => if n < exponentLimit then n * 10 + (c.toNat - '0'.toNat) else n) 0

/-- The exponent at the end of a decimal. There is none at all or a letter, a sign if any, and
digits. -/
def exponent? : List Char → Option Int
  | [] => some 0
  | c :: cs =>
    if c = 'e' ∨ c = 'E' then
      let (sign, digits) := Numeral.splitSign cs
      if digits.isEmpty || !digits.all Char.isDigit then none
      else
        let n : Int := exponentValue digits
        some (if sign = some true then -n else n)
    else none

/-- The decimal number that a text without a sign is. It has digits in front of the point, or a
point and digits behind it. -/
def ofUnsigned? (cs : List Char) : Option Decimal :=
  let whole := cs.takeWhile Char.isDigit
  match cs.dropWhile Char.isDigit with
  | '.' :: rest =>
    let fraction := rest.takeWhile Char.isDigit
    if whole.isEmpty && fraction.isEmpty then none
    else (exponent? (rest.dropWhile Char.isDigit)).map (⟨whole, fraction, ·⟩)
  | rest => if whole.isEmpty then none else (exponent? rest).map (⟨whole, [], ·⟩)

/-- The decimal number that a text with or without a sign is, as far as its size goes. -/
def ofText? (cs : List Char) : Option Decimal :=
  ofUnsigned? (Numeral.splitSign cs).2

/-- Whether a decimal number is too great for a double-precision number: the nearest multiple of the
greatest unit in the last place is 2¹⁰²⁴ or more. -/
def overflows (d : Decimal) : Bool :=
  let digits := (d.whole ++ d.fraction).dropWhile (· == '0')
  let scale := d.exponent - d.fraction.length
  let magnitude := digits.length + scale
  if digits.isEmpty || magnitude < 309 then false
  else if 309 < magnitude then true
  else
    let n := Numeral.digitsValue digits
    let bound := Nat.pow 2 1024 - Nat.pow 2 970
    if 0 ≤ scale then bound ≤ n * Nat.pow 10 scale.toNat else bound * Nat.pow 10 (-scale).toNat ≤ n

end Decimal

end Dialogue
