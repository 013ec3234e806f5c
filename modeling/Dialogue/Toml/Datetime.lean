import Dialogue.Calendar
import Dialogue.Text.Quoted

/-!
# Dates and times

The grammar tells the digits of a date or a time but not their range. Here they are checked. A date
with a time may have a time zone. If it is not in order with it, it is read again as one without,
and the zone is text that does not belong there.
-/

namespace Dialogue.Toml

inductive TimePart where
  | month
  | day
  | hour
  | minute
  | second
  deriving DecidableEq

def TimePart.name : TimePart → String
  | month => "month"
  | day => "day"
  | hour => "hour"
  | minute => "minute"
  | second => "second"

inductive TimeFault where
  | outOfRange (part : TimePart)
  /-- Text behind the date or the time. -/
  | extra (text : List Char)
  deriving DecidableEq

def TimeFault.message (text : List Char) (fault : TimeFault) : String :=
  "parsing time " ++ Quoted.text (Text.encode text) ++ ": " ++ match fault with
    | outOfRange part => part.name ++ " out of range"
    | extra rest => "extra text: " ++ Quoted.text (Text.encode rest)

namespace Datetime

/-- The number in `n` digits behind the first `start` characters. -/
def numberAt (start n : Nat) (cs : List Char) : Nat :=
  Numeral.digitsValue ((cs.drop start).take n)

def check (part : TimePart) (inRange : Bool) : Option TimeFault :=
  if inRange then none else some (.outOfRange part)

def monthFault? (cs : List Char) : Option TimeFault :=
  check .month (1 ≤ numberAt 5 2 cs && numberAt 5 2 cs ≤ 12)

/-- The fault of a day that its month does not have. -/
def dayFault? (cs : List Char) : Option TimeFault :=
  check .day (Calendar.hasDay (numberAt 0 4 cs) (numberAt 5 2 cs) (numberAt 8 2 cs))

def clockFault? (cs : List Char) : Option TimeFault :=
  check .hour (numberAt 0 2 cs < 24) <|> check .minute (numberAt 3 2 cs < 60)
    <|> check .second (numberAt 6 2 cs < 60)

/-- The text behind hours, minutes and seconds with a fraction if any. -/
def zoneOf (cs : List Char) : List Char :=
  (cs.drop 8).dropWhile fun c => c == '.' || c.isDigit

/-- Whether a text is a time zone within its range, or none. A full day and a full hour are within
it. -/
def isZone : List Char → Bool
  | [] | 'Z' :: _ => true
  | _ :: cs => numberAt 0 2 cs ≤ 24 && numberAt 3 2 cs ≤ 60

/-- The fault of a date with a time. One of the month or the clock comes first. Behind them the day
and the zone have to be in order together. If they are not, a zone is extra text, and only where
there is none the day is to blame. -/
def timestampFault? (cs : List Char) : Option TimeFault :=
  let clock := cs.drop 11
  let zone := zoneOf clock
  monthFault? cs <|> clockFault? clock <|>
    if isZone zone && (dayFault? cs).isNone then none
    else if zone.isEmpty then dayFault? cs
    else some (.extra zone)

def fault? (cs : List Char) : Option TimeFault :=
  if !cs.contains ':' then monthFault? cs <|> dayFault? cs
  else if !cs.contains '-' then clockFault? cs
  else timestampFault? cs

end Datetime

end Dialogue.Toml
