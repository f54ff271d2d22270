/-! The Gregorian calendar, extended over all years: dates and the count of days since
1970-01-01. -/
namespace Sieve.Time

def isLeap (year : Int) : Bool :=
  year % 4 == 0 && (year % 100 != 0 || year % 400 == 0)

def monthLengths (leap : Bool) : List Nat :=
  [31, if leap then 29 else 28, 31, 30, 31, 30, 31, 31, 30, 31, 30, 31]

structure Date where
  year : Int
  month : Nat
  day : Nat
  deriving DecidableEq

namespace Date

def isValid (d : Date) : Bool :=
  1 ≤ d.month && d.month ≤ 12 && 1 ≤ d.day &&
    d.day ≤ (monthLengths (isLeap d.year)).getD (d.month - 1) 0

/-- The number of days from 0001-01-01 to the first day of a year. -/
def daysBeforeYear (year : Int) : Int :=
  let past := year - 1
  365 * past + past / 4 - past / 100 + past / 400

def epochOffset : Int := 719162

def toDays (d : Date) : Int :=
  daysBeforeYear d.year - epochOffset +
    (((monthLengths (isLeap d.year)).take (d.month - 1)).foldl Nat.add 0 + (d.day - 1) : Nat)

/-- The year in which a day lies that is counted from 0001-01-01. Years are taken off in cycles of
400, 100, 4 and one; the last day of a longer cycle is no cycle of its own. -/
def yearOfDay (day : Int) : Int :=
  let inEra := day % 146097
  let centuries := min (inEra / 36524) 3
  let inCentury := inEra - 36524 * centuries
  let quads := inCentury / 1461
  let inQuad := inCentury - 1461 * quads
  400 * (day / 146097) + 100 * centuries + 4 * quads + min (inQuad / 365) 3 + 1

/-- The month and the day in it, both counted from one, of a day counted from the first of the
month `month`. -/
def monthOfDay (month : Nat) : List Nat → Nat → Nat × Nat
  | [], day => (month, day + 1)
  | length :: rest, day =>
    if day < length then (month, day + 1) else monthOfDay (month + 1) rest (day - length)

def ofDays (days : Int) : Date :=
  let day := days + epochOffset
  let year := yearOfDay day
  let (month, inMonth) :=
    monthOfDay 1 (monthLengths (isLeap year)) (day - daysBeforeYear year).toNat
  ⟨year, month, inMonth⟩

end Date
end Sieve.Time
