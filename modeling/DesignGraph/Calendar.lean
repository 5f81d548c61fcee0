import DesignGraph.Value.Basic

/-!
# Calendar

Which dates and times of day exist: years 1 to 9999 of the Gregorian calendar, and hours up to 23.
-/

namespace DesignGraph

def isLeapYear (year : Nat) : Bool := year % 4 == 0 && (year % 100 != 0 || year % 400 == 0)

def daysInMonth (year month : Nat) : Nat :=
  if month = 2 then (if isLeapYear year then 29 else 28)
  else if [4, 6, 9, 11].contains month then 30
  else 31

def Date.isValid (d : Date) : Bool :=
  1 ≤ d.year && d.year ≤ 9999 && 1 ≤ d.month && d.month ≤ 12 && 1 ≤ d.day
    && d.day ≤ daysInMonth d.year d.month

def Clock.isValid (c : Clock) : Bool :=
  c.hour < 24 && c.minute < 60 && c.second < 60 && c.microsecond < 1000000

/-- An offset is less than a day either way. -/
def Moment.isValid (m : Moment) : Bool :=
  m.date.isValid && m.clock.isValid && (m.offset.all fun minutes => minutes.natAbs < 1440)

/-- Whether the date or moment that a value is, if it is one, exists. -/
def Value.isOnCalendar : Value → Bool
  | .date d => d.isValid
  | .moment m => m.isValid
  | _ => true

end DesignGraph
