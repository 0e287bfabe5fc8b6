/-
The calendar: days are counted from 1970-01-01, and dates follow the Gregorian leap-year rule in
both directions, with a year zero.
-/
namespace TradeWatch.Time

structure Date where
  year : Int
  month : Nat
  day : Nat
deriving DecidableEq, Repr

def isLeapYear (year : Int) : Bool :=
  year % 4 == 0 && (year % 100 != 0 || year % 400 == 0)

def monthLengths (year : Int) : List Nat :=
  [31, if isLeapYear year then 29 else 28, 31, 30, 31, 30, 31, 31, 30, 31, 30, 31]

/-- Days from the first day of year zero to the first day of `year`. -/
def daysBeforeYear (year : Int) : Int :=
  365 * year + (year + 3) / 4 - (year + 99) / 100 + (year + 399) / 400

/-- Days from the first day of year zero to 1970-01-01. -/
def epochOffset : Int := 719528

/-- The year of a day counted from the first day of year zero. Four centuries have 146097 days, so
the estimate is off by one year at most. -/
def yearOfDay (n : Int) : Int :=
  let estimate := n * 400 / 146097
  if n < daysBeforeYear estimate then estimate - 1
  else if daysBeforeYear (estimate + 1) ≤ n then estimate + 1
  else estimate

/-- Days from the first day of a year to the first day of one of its months. -/
def daysBeforeMonth (year : Int) (month : Nat) : Nat :=
  ((monthLengths year).take (month - 1)).foldl (· + ·) 0

/-- The month and the day of the month, given the lengths of the months still to come. -/
def monthAndDay : List Nat → Nat → Nat → Nat × Nat
  | [], month, k => (month, k + 1)
  | length :: lengths, month, k =>
    if k < length then (month, k + 1) else monthAndDay lengths (month + 1) (k - length)

namespace Date

/-- The date of a day counted from 1970-01-01. -/
def ofDay (n : Int) : Date :=
  let m := n + epochOffset
  let year := yearOfDay m
  let (month, day) := monthAndDay (monthLengths year) 1 (m - daysBeforeYear year).toNat
  ⟨year, month, day⟩

/-- The day counted from 1970-01-01. -/
def toDay (d : Date) : Int :=
  daysBeforeYear d.year + daysBeforeMonth d.year d.month + d.day - 1 - epochOffset

/-- The month exists and has that day. -/
def isReal (d : Date) : Bool :=
  d.month != 0 && d.day != 0 && decide (d.day ≤ ((monthLengths d.year)[d.month - 1]?).getD 0)

end Date

end TradeWatch.Time
