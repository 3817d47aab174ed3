/-!
# The calendar

The Gregorian calendar extended in both directions, with a year zero, and seconds counted from the
start of 1970 in universal time.  Leap seconds have no count of their own.
-/

namespace ThreatGraph
namespace Time

def isLeap (year : Int) : Bool := year % 4 = 0 && (year % 100 ≠ 0 || year % 400 = 0)

def daysInMonth (year : Int) (month : Nat) : Nat :=
  match month with
  | 2 => if isLeap year then 29 else 28
  | 4 => 30
  | 6 => 30
  | 9 => 30
  | 11 => 30
  | _ => 31

structure Civil where
  year : Int
  month : Nat
  day : Nat
  hour : Nat
  minute : Nat
  second : Nat
  deriving DecidableEq, Inhabited, Repr

def minYear : Int := -262143

def maxYear : Int := 262142

namespace Civil

/-- A day of the calendar and a time of that day; second 60 is a leap second. -/
def isValid (c : Civil) : Bool :=
  minYear ≤ c.year && c.year ≤ maxYear && 1 ≤ c.month && c.month ≤ 12 && 1 ≤ c.day &&
    c.day ≤ daysInMonth c.year c.month && c.hour < 24 && c.minute < 60 && c.second ≤ 60

end Civil

def daysBeforeMonth (year : Int) (month : Nat) : Nat :=
  (List.range (month - 1)).foldl (fun days m => days + daysInMonth year (m + 1)) 0

/-- The days from the start of year zero to the start of `year`. -/
def daysBeforeYear (year : Int) : Int :=
  365 * year + (year + 3) / 4 - (year + 99) / 100 + (year + 399) / 400

def dayNumber (year : Int) (month day : Nat) : Int :=
  daysBeforeYear year + daysBeforeMonth year month + day - 1 - 719528

/-- The seconds from the start of 1970.  A leap second counts as the second before it. -/
def Civil.seconds (c : Civil) : Int :=
  dayNumber c.year c.month c.day * 86400 + c.hour * 3600 + c.minute * 60 + min c.second 59

/-- The first and the last second of the years that are counted. -/
def minSeconds : Int := -8334601228800

def maxSeconds : Int := 8210266876799

def inCalendar (seconds : Int) : Bool := minSeconds ≤ seconds && seconds ≤ maxSeconds

theorem daysBeforeYear_succ (year : Int) :
    daysBeforeYear (year + 1) = daysBeforeYear year + if isLeap year then 366 else 365 := by
  simp only [daysBeforeYear, isLeap, Bool.and_eq_true, Bool.or_eq_true, decide_eq_true_eq]
  split <;> omega

theorem minSeconds_eq : minSeconds = (Civil.mk minYear 1 1 0 0 0).seconds := by decide

theorem maxSeconds_eq : maxSeconds = (Civil.mk maxYear 12 31 23 59 59).seconds := by decide

end Time
end ThreatGraph
