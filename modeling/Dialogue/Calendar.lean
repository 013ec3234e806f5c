/-!
# The calendar

The lengths of the months, in which every fourth year has a leap day, but not every hundredth, and
again every four hundredth.
-/

namespace Dialogue.Calendar

def isLeap (year : Nat) : Bool :=
  year % 4 = 0 && (year % 100 != 0 || year % 400 = 0)

def daysIn (year month : Nat) : Nat :=
  if month = 2 then if isLeap year then 29 else 28
  else if month = 4 ∨ month = 6 ∨ month = 9 ∨ month = 11 then 30
  else 31

def hasDay (year month day : Nat) : Bool :=
  1 ≤ day && day ≤ daysIn year month

end Dialogue.Calendar
