import Sieve.Proofs.Time.Calendar
import Sieve.Proofs.Time.Reader

/-! Instants that are written and read back. Years of four digits are read in the strict form, the
others after their sign in a loose one. -/
namespace Sieve.Time

namespace Instant

def reading (t : Instant) : Reading where
  date := Date.ofDays (t.second / 86400)
  hour := (t.second % 86400).toNat / 3600
  minute := (t.second % 86400).toNat / 60 % 60
  second := (t.second % 86400).toNat % 60 + if t.inLeapSecond then 1 else 0
  nano := t.nano % 1000000000
  ahead := 0

theorem year_bounds (t : Instant) :
    minYear ≤ t.reading.date.year ∧ t.reading.date.year ≤ maxYear := by
  have first : minSecond = (Date.daysBeforeYear minYear - Date.epochOffset) * 86400 := by decide
  have last : maxSecond < (Date.daysBeforeYear (maxYear + 1) - Date.epochOffset) * 86400 := by decide
  obtain ⟨after, before⟩ := t.inRange
  constructor
  · apply Date.le_year_ofDays
    omega
  · apply Int.lt_add_one_iff.mp
    apply Date.year_ofDays_lt
    omega

/-- A leap second can only follow the last second of a minute. -/
theorem second_of_inLeapSecond {t : Instant} (leap : t.inLeapSecond = true) :
    t.second % 60 = 59 := by
  have bound := t.nano_lt
  have long : 1000000000 ≤ t.nano := of_decide_eq_true leap
  by_cases last : t.second % 60 = 59
  · exact last
  · rw [if_neg last] at bound
    omega

theorem make?_self (t : Instant) : make? t.second t.nano = some t :=
  dif_pos ⟨t.inRange, t.nano_lt⟩

theorem second_reading (t : Instant) :
    (t.reading.second == 60) = t.inLeapSecond ∧
      (if t.inLeapSecond then 59 else t.reading.second) = (t.second % 86400).toNat % 60 := by
  have second : t.reading.second =
      (t.second % 86400).toNat % 60 + if t.inLeapSecond then 1 else 0 := rfl
  cases leap : t.inLeapSecond with
  | true =>
    have last := second_of_inLeapSecond leap
    rw [leap, if_pos rfl] at second
    have sixty : t.reading.second = 60 := by omega
    refine ⟨beq_iff_eq.mpr sixty, ?_⟩
    rw [if_pos rfl]
    omega
  | false =>
    rw [leap, if_neg Bool.false_ne_true, Nat.add_zero] at second
    have below : t.reading.second ≠ 60 := by omega
    refine ⟨beq_eq_false_iff_ne.mpr below, ?_⟩
    rw [if_neg Bool.false_ne_true, second]

theorem nano_reading (t : Instant) :
    (if t.inLeapSecond then t.reading.nano + 1000000000 else t.reading.nano) = t.nano := by
  have bound := t.nano_lt
  have nano : t.reading.nano = t.nano % 1000000000 := rfl
  split
  next leap =>
    have long : 1000000000 ≤ t.nano := of_decide_eq_true leap
    rw [if_pos (second_of_inLeapSecond leap)] at bound
    omega
  next short =>
    have below : ¬1000000000 ≤ t.nano := fun long => short (decide_eq_true long)
    omega

structure InBounds (r : Reading) : Prop where
  date : r.date.isValid = true
  minYear_le : minYear ≤ r.date.year
  le_maxYear : r.date.year ≤ maxYear
  hour : r.hour ≤ 23
  minute : r.minute ≤ 59
  second : r.second ≤ 60
  nano : r.nano < 1000000000
  ahead : r.ahead = 0

theorem inBounds_reading (t : Instant) : InBounds t.reading where
  date := Date.isValid_ofDays (t.second / 86400)
  minYear_le := (year_bounds t).1
  le_maxYear := (year_bounds t).2
  hour := by
    change (t.second % 86400).toNat / 3600 ≤ 23
    omega
  minute := by
    change (t.second % 86400).toNat / 60 % 60 ≤ 59
    omega
  second := by
    obtain ⟨leap, second⟩ := second_reading t
    split at second
    next isLeap =>
      rw [isLeap] at leap
      exact Nat.le_of_eq (beq_iff_eq.mp leap)
    next => omega
  nano := Nat.mod_lt _ (by decide)
  ahead := rfl

theorem toInstant?_reading (t : Instant) : t.reading.toInstant? = some t := by
  obtain ⟨leap, second⟩ := second_reading t
  have bounds := inBounds_reading t
  have ahead := bounds.ahead
  have accepted : (t.reading.date.isValid && minYear ≤ t.reading.date.year &&
      t.reading.date.year ≤ maxYear && t.reading.hour ≤ 23 && t.reading.minute ≤ 59 &&
      t.reading.second ≤ 60 && t.reading.ahead.natAbs < 86400) = true := by
    simp only [Bool.and_eq_true, decide_eq_true_eq]
    exact ⟨⟨⟨⟨⟨⟨bounds.date, bounds.minYear_le⟩, bounds.le_maxYear⟩, bounds.hour⟩,
      bounds.minute⟩, bounds.second⟩, by omega⟩
  have now : t.reading.date.toDays * 86400 + (t.reading.hour * 3600 + t.reading.minute * 60 +
      (t.second % 86400).toNat % 60 : Nat) - t.reading.ahead = t.second := by
    have days : t.reading.date.toDays = t.second / 86400 := Date.toDays_ofDays (t.second / 86400)
    have hour : t.reading.hour = (t.second % 86400).toNat / 3600 := rfl
    have minute : t.reading.minute = (t.second % 86400).toNat / 60 % 60 := rfl
    omega
  rw [Reading.toInstant?, if_pos accepted]
  simp only [leap, second, nano_reading, now]
  exact make?_self t

def body (t : Instant) : List Char :=
  writtenYear t.reading.date.year ++ '-' :: (padded 2 t.reading.date.month ++
    '-' :: (padded 2 t.reading.date.day ++ 'T' :: (padded 2 t.reading.hour ++
      ':' :: (padded 2 t.reading.minute ++ ':' :: (padded 2 t.reading.second ++
        writtenFraction t.reading.nano)))))

theorem written_eq (t : Instant) : t.written = t.body ++ ['Z'] := by
  simp only [written, body, reading, List.append_assoc, List.cons_append]

theorem writtenYear_of_four_digits {year : Int} (fits : 0 ≤ year ∧ year ≤ 9999) :
    writtenYear year = padded 4 year.toNat := by
  rw [writtenYear, if_pos (by simpa using fits)]

end Instant

namespace Reader

open Instant

theorem strict_body (t : Instant) (fits : 0 ≤ t.reading.date.year ∧ t.reading.date.year ≤ 9999) :
    strict (t.body ++ ['Z']) = some (t.reading, []) := by
  have bounds := inBounds_reading t
  have four : t.reading.date.year.toNat < Nat.pow 10 4 := by
    change t.reading.date.year.toNat < 10000
    omega
  have two {n limit : Nat} (within : n ≤ limit) (small : limit < Nat.pow 10 2)
      (rest : List Char) : exactly 2 (padded 2 n ++ rest) = some (n, rest) :=
    exactly_padded (by decide) (Nat.lt_of_le_of_lt within small) rest
  have fraction : fraction (writtenFraction t.reading.nano ++ ['Z']) =
      some (t.reading.nano, ['Z']) :=
    fraction_writtenFraction bounds.nano (Text.endsDigits_cons (by decide) []) (by simp)
  have year : ((t.reading.date.year.toNat : Nat) : Int) = t.reading.date.year :=
    Int.toNat_of_nonneg fits.1
  simp only [body, writtenYear_of_four_digits fits, List.append_assoc, List.cons_append]
  rw [strict, bind_of_read (exactly_padded (by decide) four _), bind_of_read (literal_cons _ _),
    bind_of_read (two (Date.month_le_of_isValid bounds.date) (by decide) _),
    bind_of_read (literal_cons _ _),
    bind_of_read (two (Date.day_le_of_isValid bounds.date) (by decide) _)]
  -- The letter between date and time.
  refine (bind_of_read rfl).trans ?_
  rw [bind_of_read (two bounds.hour (by decide) _),
    bind_of_read (literal_cons _ _), bind_of_read (two bounds.minute (by decide) _),
    bind_of_read (literal_cons _ _), bind_of_read (two bounds.second (by decide) _),
    bind_of_read fraction, year]
  rfl

/-- No signed year is read in the strict form. -/
theorem strict_of_sign {sign : Char} (noDigit : sign.isDigit = false) (rest : List Char) :
    strict (sign :: rest) = none := by
  have none : digits 4 4 (sign :: rest) = none := by
    rw [digits, List.take_succ_cons, List.takeWhile_cons_of_neg (by simp [noDigit])]
    rfl
  rw [strict, exactly, bind_of_none (bind_of_none none)]

theorem year_writtenYear {y : Int} (long : ¬(0 ≤ y ∧ y ≤ 9999)) {rest : List Char}
    (ends : Text.EndsDigits rest) : year (writtenYear y ++ rest) = some (y, rest) := by
  rw [writtenYear, if_neg (by simpa using long)]
  split
  next negative =>
    have value : -((y.natAbs : Nat) : Int) = y := by omega
    rw [List.cons_append, year_minus _ ends, value]
  next positive =>
    have value : ((y.natAbs : Nat) : Int) = y := by omega
    rw [List.cons_append, year_plus _ ends, value]

theorem dateTime_body (t : Instant)
    (long : ¬(0 ≤ t.reading.date.year ∧ t.reading.date.year ≤ 9999)) :
    dateTime seconds (pure 0) t.body = some (t.reading, []) := by
  have bounds := inBounds_reading t
  have two {n limit : Nat} (within : n ≤ limit) (small : limit < 100) (rest : List Char) :
      loose (padded 2 n ++ rest) = some (n, rest) :=
    loose_padded (Nat.lt_of_le_of_lt within small) rest
  have fraction : fraction (writtenFraction t.reading.nano) = some (t.reading.nano, []) := by
    have read := fraction_writtenFraction bounds.nano Text.endsDigits_nil (by simp)
    rwa [List.append_nil] at read
  have date (rest : List Char) : date (writtenYear t.reading.date.year ++ '-' ::
      (padded 2 t.reading.date.month ++ '-' :: (padded 2 t.reading.date.day ++ rest))) =
        some (t.reading.date, rest) := by
    rw [date, bind_of_read (year_writtenYear long (Text.endsDigits_cons (by decide) _)),
      bind_of_read (literal_cons _ _),
      bind_of_read (two (Date.month_le_of_isValid bounds.date) (by decide) _),
      bind_of_read (literal_cons _ _),
      bind_of_read (two (Date.day_le_of_isValid bounds.date) (by decide) _)]
    rfl
  have seconds : seconds (':' :: (padded 2 t.reading.second ++ writtenFraction t.reading.nano)) =
      some ((t.reading.second, t.reading.nano), []) := by
    rw [seconds, bind_of_read (literal_cons _ _), bind_of_read (two bounds.second (by decide) _),
      bind_of_read fraction]
    rfl
  rw [body, dateTime, bind_of_read (date _), bind_of_read (literal_cons _ _),
    bind_of_read (two bounds.hour (by decide) _), bind_of_read (literal_cons _ _),
    bind_of_read (two bounds.minute (by decide) _), bind_of_read seconds]
  simp only
  rfl

end Reader

namespace Instant

theorem exists_writtenYear (year : Int) : ∃ c rest, writtenYear year = c :: rest ∧
    Text.isBlank c = false ∧ (¬(0 ≤ year ∧ year ≤ 9999) → c.isDigit = false) := by
  by_cases fits : 0 ≤ year ∧ year ≤ 9999
  · obtain ⟨c, digits, same, digit⟩ := @exists_padded 4 year.toNat (by decide)
    refine ⟨c, digits, ?_, Text.isBlank_of_isDigit digit, absurd fits⟩
    rw [writtenYear_of_four_digits fits, same]
  · rw [writtenYear, if_neg (by simpa using fits)]
    refine ⟨_, _, rfl, ?_, fun _ => ?_⟩ <;> split <;> decide

/-- An instant is read back from its written form. -/
theorem parse?_text (t : Instant) : parse? t.text = some t := by
  obtain ⟨first, others, year, visible, sign⟩ := exists_writtenYear t.reading.date.year
  obtain ⟨rest, begins⟩ : ∃ rest, t.body = first :: rest := by
    rw [body, year]
    exact ⟨_, rfl⟩
  have trimmed : Text.trim (t.body ++ ['Z']) = t.body ++ ['Z'] := by
    rw [begins]
    refine Text.trim_of_visibleEnds ⟨by simpa using visible, ?_⟩
    rw [List.getLast?_concat]
    rintro _ ⟨⟩
    decide
  rw [parse?, text, String.toList_ofList, ofChars?, written_eq, trimmed]
  by_cases fits : 0 ≤ t.reading.date.year ∧ t.reading.date.year ≤ 9999
  · have strictly : Reader.whole Reader.strict (t.body ++ ['Z']) = some t := by
      rw [Reader.whole_of_read (Reader.strict_body t fits), toInstant?_reading]
    simp only [strictly]
  · -- The sign keeps such a year from the strict form, so the letter is taken off first.
    have notStrictly : Reader.whole Reader.strict (t.body ++ ['Z']) = none := by
      rw [begins, List.cons_append, Reader.whole, Reader.strict_of_sign (sign fits)]
    have beforeZ : Reader.beforeZ? (t.body ++ ['Z']) = some t.body := by
      rw [Reader.beforeZ?, List.reverse_append]
      exact congrArg some (List.reverse_reverse t.body)
    have loosely : Reader.plain t.body = some t := by
      rw [Reader.plain, Reader.whole_of_read (Reader.dateTime_body t fits), toInstant?_reading]
      rfl
    simp only [notStrictly, beforeZ, loosely]

end Instant
end Sieve.Time
