import Sieve.Number.Written
import Sieve.Time.Calendar

/-! Instants of universal time with nanoseconds and leap seconds, and their written form. -/
namespace Sieve.Time

def minYear : Int := -262143
def maxYear : Int := 262142

def minSecond : Int := Date.toDays ⟨minYear, 1, 1⟩ * 86400

def maxSecond : Int := Date.toDays ⟨maxYear, 12, 31⟩ * 86400 + 86399

/-- A second since 1970-01-01T00:00:00Z and the nanoseconds in it. In a leap second, which can only
follow the last second of a minute, they go on counting from 10^9. -/
structure Instant where
  second : Int
  nano : Nat
  inRange : minSecond ≤ second ∧ second ≤ maxSecond
  nano_lt : nano < if second % 60 = 59 then 2000000000 else 1000000000
  deriving DecidableEq

namespace Instant

def make? (second : Int) (nano : Nat) : Option Instant :=
  if h : (minSecond ≤ second ∧ second ≤ maxSecond) ∧
      nano < if second % 60 = 59 then 2000000000 else 1000000000 then
    some ⟨second, nano, h.1, h.2⟩
  else none

def inLeapSecond (t : Instant) : Bool :=
  1000000000 ≤ t.nano

def order (t u : Instant) : Ordering :=
  (compare t.second u.second).then (compare t.nano u.nano)

def padded (width n : Nat) : List Char :=
  let digits := decimalDigits n
  List.replicate (width - digits.length) '0' ++ digits

/-- Four digits for the years 0 to 9999, a sign and at least four digits for the others. -/
def writtenYear (year : Int) : List Char :=
  if 0 ≤ year && year ≤ 9999 then padded 4 year.toNat
  else (if year < 0 then '-' else '+') :: padded 4 year.natAbs

/-- A fraction of a second in three, six or nine digits, as few as hold it; none if it is zero. -/
def writtenFraction (nano : Nat) : List Char :=
  if nano = 0 then []
  else if nano % 1000000 = 0 then '.' :: padded 3 (nano / 1000000)
  else if nano % 1000 = 0 then '.' :: padded 6 (nano / 1000)
  else '.' :: padded 9 nano

def written (t : Instant) : List Char :=
  let date := Date.ofDays (t.second / 86400)
  let inDay := (t.second % 86400).toNat
  let second := inDay % 60 + if t.inLeapSecond then 1 else 0
  writtenYear date.year ++ '-' :: padded 2 date.month ++ '-' :: padded 2 date.day ++
    'T' :: padded 2 (inDay / 3600) ++ ':' :: padded 2 (inDay / 60 % 60) ++
    ':' :: padded 2 second ++ writtenFraction (t.nano % 1000000000) ++ ['Z']

def text (t : Instant) : String :=
  String.ofList t.written

end Instant
end Sieve.Time
