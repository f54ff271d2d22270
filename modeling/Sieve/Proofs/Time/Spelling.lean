import Sieve.Proofs.Number.Decimal
import Sieve.Proofs.Time.Calendar
import Sieve.Time.Reading

/-! The spellings of instants: a date and a time of day to the minute or the second, and what can
follow it to tell its offset from universal time. -/
namespace Sieve.Time

open Instant

/-- The seconds of a spelling, with the digits of their fraction. There is no point if there are no
digits. -/
structure Seconds where
  second : Fin 61
  fraction : List Char
  digits : IsDigits fraction

namespace Seconds

def nano (s : Seconds) : Nat :=
  Text.ofDigits (s.fraction.take 9) * Nat.pow 10 (9 - (s.fraction.take 9).length)

def fractionChars (s : Seconds) : List Char :=
  if s.fraction = [] then [] else '.' :: s.fraction

def chars (s : Seconds) : List Char :=
  ':' :: (padded 2 s.second ++ s.fractionChars)

theorem nano_lt (s : Seconds) : s.nano < 1000000000 := by
  have first : IsDigits (s.fraction.take 9) := s.digits.of_sublist (List.take_sublist 9 _)
  have most : (s.fraction.take 9).length ≤ 9 := List.length_take_le 9 _
  have power : 0 < 10 ^ (9 - (s.fraction.take 9).length) := Nat.pow_pos (by decide)
  calc s.nano
    _ < 10 ^ (s.fraction.take 9).length * 10 ^ (9 - (s.fraction.take 9).length) :=
      Nat.mul_lt_mul_of_pos_right first.ofDigits_lt power
    _ = 1000000000 := by rw [← Nat.pow_add, Nat.add_sub_cancel' most]

end Seconds

/-- A date in a year of four digits and a time of day. Only the seconds may be left out. -/
structure Spelling where
  date : Date
  hour : Fin 24
  minute : Fin 60
  seconds : Option Seconds
  valid : date.isValid = true
  fourDigits : 0 ≤ date.year ∧ date.year ≤ 9999

namespace Spelling

def dateChars (d : Spelling) : List Char :=
  padded 4 d.date.year.toNat ++ '-' :: (padded 2 d.date.month ++ '-' :: padded 2 d.date.day)

def secondsChars (d : Spelling) : List Char :=
  (d.seconds.map Seconds.chars).getD []

def timeChars (d : Spelling) : List Char :=
  'T' :: (padded 2 d.hour ++ ':' :: (padded 2 d.minute ++ d.secondsChars))

def chars (d : Spelling) : List Char :=
  d.dateChars ++ d.timeChars

def dateText (d : Spelling) : String :=
  String.ofList d.dateChars

def text (d : Spelling) : String :=
  String.ofList d.chars

def reading (d : Spelling) (ahead : Int) : Reading where
  date := d.date
  hour := d.hour
  minute := d.minute
  second := (d.seconds.map fun s => s.second.val).getD 0
  nano := (d.seconds.map Seconds.nano).getD 0
  ahead := ahead

/-- The second that is spelled, whatever the offset. A leap second is counted as one with the second
before it. -/
def second (d : Spelling) : Int :=
  d.date.toDays * 86400 + (d.hour * 3600 + d.minute * 60 + min (d.reading 0).second 59 : Nat)

def nano (d : Spelling) : Nat :=
  if (d.reading 0).second = 60 then (d.reading 0).nano + 1000000000 else (d.reading 0).nano

end Spelling

structure IsOffset (ahead : Int) : Prop where
  minutes : ahead % 60 = 0
  lessThanDay : ahead.natAbs < 86400

theorem isOffset_zero : IsOffset 0 := ⟨by decide, by decide⟩

namespace Spelling

variable (d : Spelling) {ahead : Int}

theorem date_fits :
    d.date.year.toNat < 10000 ∧ d.date.month < 100 ∧ d.date.day < 100 := by
  have year := d.fourDigits
  have month := Date.month_le_of_isValid d.valid
  have day := Date.day_le_of_isValid d.valid
  omega

theorem toNat_year : ((d.date.year.toNat : Nat) : Int) = d.date.year :=
  Int.toNat_of_nonneg d.fourDigits.1

theorem reading_bounds : (d.reading 0).second ≤ 60 ∧ (d.reading 0).nano < 1000000000 := by
  cases given : d.seconds with
  | none => simp [reading, given]
  | some s =>
    simp only [reading, given, Option.map_some, Option.getD_some]
    exact ⟨Nat.le_of_lt_succ s.second.isLt, s.nano_lt⟩

theorem inRange_second (offset : IsOffset ahead) :
    minSecond ≤ d.second - ahead ∧ d.second - ahead ≤ maxSecond := by
  -- One day of leeway is for the offset, the other for the time of day.
  have least : minSecond ≤ (Date.daysBeforeYear 0 - Date.epochOffset) * 86400 - 86400 := by decide
  have most :
      (Date.daysBeforeYear 9999 - Date.epochOffset + 397) * 86400 + 172800 ≤ maxSecond := by decide
  have first := Date.daysBeforeYear_mono d.fourDigits.1
  have last := Date.daysBeforeYear_mono d.fourDigits.2
  obtain ⟨after, before⟩ := Date.toDays_bounds d.valid
  have hour := d.hour.isLt
  have minute := d.minute.isLt
  have day := offset.lessThanDay
  rw [second]
  omega

/-- Offsets leave the second of the minute as it is, so a leap second stays where it can be. -/
theorem nano_fits (offset : IsOffset ahead) :
    d.nano < if (d.second - ahead) % 60 = 59 then 2000000000 else 1000000000 := by
  obtain ⟨_, nanos⟩ := d.reading_bounds
  have minutes := offset.minutes
  rw [nano, second]
  split <;> split <;> omega

/-- Every spelling names an instant at every offset. -/
theorem exists_toInstant? (offset : IsOffset ahead) : ∃ t : Instant,
    (d.reading ahead).toInstant? = some t ∧ t.second = d.second - ahead ∧ t.nano = d.nano := by
  obtain ⟨seconds, _⟩ := d.reading_bounds
  have accepted : (d.date.isValid && minYear ≤ d.date.year && d.date.year ≤ maxYear &&
      d.hour.val ≤ 23 && d.minute.val ≤ 59 && (d.reading 0).second ≤ 60 &&
      ahead.natAbs < 86400) = true := by
    have least : minYear ≤ 0 := by decide
    have most : 9999 ≤ maxYear := by decide
    have year := d.fourDigits
    have hour := d.hour.isLt
    have minute := d.minute.isLt
    simp only [Bool.and_eq_true, decide_eq_true_eq]
    exact ⟨⟨⟨⟨⟨⟨d.valid, by omega⟩, by omega⟩, by omega⟩, by omega⟩, seconds⟩, offset.lessThanDay⟩
  have clock : (if (d.reading 0).second == 60 then 59 else (d.reading 0).second) =
      min (d.reading 0).second 59 := by
    split
    next leap =>
      have sixty : (d.reading 0).second = 60 := beq_iff_eq.mp leap
      omega
    next noLeap =>
      have other : (d.reading 0).second ≠ 60 := mt beq_iff_eq.mpr noLeap
      omega
  refine ⟨⟨d.second - ahead, d.nano, d.inRange_second offset, d.nano_fits offset⟩, ?_, rfl, rfl⟩
  refine (if_pos accepted).trans ?_
  change make? (d.date.toDays * 86400 + (d.hour * 3600 + d.minute * 60 +
    (if (d.reading 0).second == 60 then 59 else (d.reading 0).second) : Nat) - ahead)
      (if (d.reading 0).second == 60 then _ else (d.reading 0).nano) = _
  rw [clock]
  simp only [beq_iff_eq]
  exact dif_pos ⟨d.inRange_second offset, d.nano_fits offset⟩

end Spelling

structure Offset where
  behind : Bool
  hours : Fin 24
  minutes : Fin 60

namespace Offset

def sign (o : Offset) : Int :=
  if o.behind then -1 else 1

def ahead (o : Offset) : Int :=
  o.sign * (o.hours * 3600 + o.minutes * 60 : Nat)

def separator (colon : Bool) : List Char :=
  if colon then [':'] else []

def chars (o : Offset) (colon : Bool) : List Char :=
  (if o.behind then '-' else '+') :: (padded 2 o.hours ++ (separator colon ++ padded 2 o.minutes))

def text (o : Offset) (colon : Bool) : String :=
  String.ofList (o.chars colon)

theorem isOffset (o : Offset) : IsOffset o.ahead := by
  have hours := o.hours.isLt
  have minutes := o.minutes.isLt
  rw [ahead, sign]
  constructor
  · split <;> omega
  · split <;> omega

end Offset

inductive Zone where
  | missing
  | letter (upper : Bool)
  | offset (o : Offset) (colon : Bool)

namespace Zone

def chars : Zone → List Char
  | missing => []
  | letter upper => [if upper then 'Z' else 'z']
  | offset o colon => o.chars colon

def text (z : Zone) : String :=
  String.ofList z.chars

def ahead : Zone → Int
  | missing | letter _ => 0
  | offset o _ => o.ahead

theorem isOffset (z : Zone) : IsOffset z.ahead := by
  cases z with
  | missing | letter => exact isOffset_zero
  | offset o => exact o.isOffset

theorem append_missing (s : String) : s ++ Zone.text .missing = s :=
  String.append_empty

end Zone

end Sieve.Time
