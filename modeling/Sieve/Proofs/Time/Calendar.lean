import Mathlib.Algebra.GroupWithZero.Nat
import Sieve.Time.Calendar

/-! Days and dates. Every day has a date that the calendar has, and the date gives the day back. -/
namespace Sieve.Time.Date

theorem isLeap_iff (year : Int) :
    isLeap year = true ↔ year % 4 = 0 ∧ (year % 100 ≠ 0 ∨ year % 400 = 0) := by
  simp [isLeap]

theorem daysBeforeYear_eq (year : Int) :
    daysBeforeYear year =
      365 * (year - 1) + (year - 1) / 4 - (year - 1) / 100 + (year - 1) / 400 := rfl

theorem sum_monthLengths (leap : Bool) : (monthLengths leap).sum = if leap then 366 else 365 := by
  cases leap <;> decide

theorem daysBeforeYear_succ (year : Int) :
    daysBeforeYear (year + 1) = daysBeforeYear year + ((monthLengths (isLeap year)).sum : Nat) := by
  have leap := isLeap_iff year
  rw [sum_monthLengths, daysBeforeYear_eq, daysBeforeYear_eq]
  split
  next long =>
    have divides := leap.mp long
    omega
  next short =>
    have divides := mt leap.mpr short
    omega

theorem daysBeforeYear_mono {year later : Int} (before : year ≤ later) :
    daysBeforeYear year ≤ daysBeforeYear later := by
  rw [daysBeforeYear_eq, daysBeforeYear_eq]
  omega

theorem daysBeforeYear_cycles {era centuries quads years : Int}
    (inEra : 0 ≤ centuries ∧ centuries ≤ 3) (inCentury : 0 ≤ quads ∧ quads ≤ 24)
    (inQuad : 0 ≤ years ∧ years ≤ 3) :
    daysBeforeYear (400 * era + 100 * centuries + 4 * quads + years + 1) =
      146097 * era + 36524 * centuries + 1461 * quads + 365 * years := by
  rw [daysBeforeYear_eq]
  omega

/-- A day lies in one of the years of its cycles. The last day of a cycle of 400 or of 4 years is
no cycle of its own, so it is the day 365 of its year. -/
theorem exists_cycles (day : Int) : ∃ era centuries quads years rest : Int,
    yearOfDay day = 400 * era + 100 * centuries + 4 * quads + years + 1 ∧
      day = 146097 * era + 36524 * centuries + 1461 * quads + 365 * years + rest ∧
      (0 ≤ centuries ∧ centuries ≤ 3) ∧ (0 ≤ quads ∧ quads ≤ 24) ∧ (0 ≤ years ∧ years ≤ 3) ∧
      0 ≤ rest ∧ (rest < 365 ∨ rest = 365 ∧ years = 3 ∧ (quads = 24 → centuries = 3)) := by
  -- With a name for every quotient and rest, what is left is linear.
  obtain ⟨inEra, inEraEq⟩ : ∃ n, n = day % 146097 := ⟨_, rfl⟩
  obtain ⟨centuries, centuriesEq⟩ : ∃ n, n = min (inEra / 36524) 3 := ⟨_, rfl⟩
  obtain ⟨inCentury, inCenturyEq⟩ : ∃ n, n = inEra - 36524 * centuries := ⟨_, rfl⟩
  obtain ⟨quads, quadsEq⟩ : ∃ n, n = inCentury / 1461 := ⟨_, rfl⟩
  obtain ⟨inQuad, inQuadEq⟩ : ∃ n, n = inCentury - 1461 * quads := ⟨_, rfl⟩
  obtain ⟨years, yearsEq⟩ : ∃ n, n = min (inQuad / 365) 3 := ⟨_, rfl⟩
  refine ⟨day / 146097, centuries, quads, years, inQuad - 365 * years, ?_, ?_, ?_, ?_, ?_, ?_, ?_⟩
  · rw [yearsEq, inQuadEq, quadsEq, inCenturyEq, centuriesEq, inEraEq]
    rfl
  all_goals omega

theorem yearOfDay_bounds (day : Int) :
    daysBeforeYear (yearOfDay day) ≤ day ∧ day < daysBeforeYear (yearOfDay day + 1) := by
  obtain ⟨era, centuries, quads, years, rest, year, whole, inEra, inCentury, inQuad, nonneg, last⟩ :=
    exists_cycles day
  rw [daysBeforeYear_succ, sum_monthLengths, year, daysBeforeYear_cycles inEra inCentury inQuad]
  rcases last with inYear | ⟨rest, fourth, century⟩
  · split <;> omega
  · have leap : isLeap (400 * era + 100 * centuries + 4 * quads + years + 1) = true := by
      rw [isLeap_iff]
      omega
    rw [if_pos leap]
    omega

theorem monthOfDay_eq (lengths : List Nat) (month day : Nat) (inside : day < lengths.sum) :
    ∃ passed inMonth, monthOfDay month lengths day = (month + passed, inMonth + 1) ∧
      passed < lengths.length ∧ inMonth < lengths.getD passed 0 ∧
      (lengths.take passed).sum + inMonth = day := by
  induction lengths generalizing month day with
  | nil => exact absurd inside (Nat.not_lt_zero day)
  | cons length rest ih =>
    rw [List.sum_cons] at inside
    rw [monthOfDay]
    split
    next here => exact ⟨0, day, rfl, Nat.succ_pos _, here, Nat.zero_add day⟩
    next later =>
      obtain ⟨passed, inMonth, same, isMonth, isDay, total⟩ :=
        ih (month + 1) (day - length) (by omega)
      refine ⟨passed + 1, inMonth, ?_, Nat.succ_lt_succ isMonth, isDay, ?_⟩
      · rw [same, Nat.add_assoc, Nat.add_comm 1]
      · rw [List.take_succ_cons, List.sum_cons]
        omega

theorem exists_ofDays (days : Int) : ∃ passed inMonth : Nat,
    ofDays days = ⟨yearOfDay (days + epochOffset), passed + 1, inMonth + 1⟩ ∧ passed < 12 ∧
      inMonth < (monthLengths (isLeap (yearOfDay (days + epochOffset)))).getD passed 0 ∧
      daysBeforeYear (yearOfDay (days + epochOffset)) +
        (((monthLengths (isLeap (yearOfDay (days + epochOffset)))).take passed).sum + inMonth : Nat) =
          days + epochOffset := by
  obtain ⟨begun, before⟩ := yearOfDay_bounds (days + epochOffset)
  rw [daysBeforeYear_succ] at before
  generalize lengthsEq : monthLengths (isLeap (yearOfDay (days + epochOffset))) = lengths at before ⊢
  obtain ⟨passed, inMonth, same, isMonth, isDay, total⟩ := monthOfDay_eq lengths 1
    (days + epochOffset - daysBeforeYear (yearOfDay (days + epochOffset))).toNat (by omega)
  refine ⟨passed, inMonth, ?_, ?_, isDay, by omega⟩
  · simp only [ofDays, lengthsEq, same, Nat.add_comm 1]
  · rw [← lengthsEq] at isMonth
    exact isMonth

theorem isValid_ofDays (days : Int) : (ofDays days).isValid = true := by
  obtain ⟨passed, inMonth, same, isMonth, isDay, _⟩ := exists_ofDays days
  rw [same]
  simp only [isValid, Bool.and_eq_true, decide_eq_true_eq, Nat.add_sub_cancel]
  omega

theorem monthLength_le (leap : Bool) (passed : Nat) : (monthLengths leap).getD passed 0 ≤ 31 := by
  have all : ∀ length ∈ monthLengths leap, length ≤ 31 := by
    cases leap <;> decide
  rw [List.getD_eq_getElem?_getD]
  cases found : (monthLengths leap)[passed]? with
  | none => exact Nat.zero_le 31
  | some length => exact all length (List.mem_of_getElem? found)

theorem month_le_of_isValid {date : Date} (valid : date.isValid = true) : date.month ≤ 12 := by
  simp only [isValid, Bool.and_eq_true, decide_eq_true_eq] at valid
  exact valid.1.1.2

theorem day_le_of_isValid {date : Date} (valid : date.isValid = true) : date.day ≤ 31 := by
  simp only [isValid, Bool.and_eq_true, decide_eq_true_eq] at valid
  exact Nat.le_trans valid.2 (monthLength_le _ _)

theorem toDays_bounds {date : Date} (valid : date.isValid = true) :
    daysBeforeYear date.year - epochOffset ≤ date.toDays ∧
      date.toDays ≤ daysBeforeYear date.year - epochOffset + 397 := by
  have day := day_le_of_isValid valid
  generalize lengthsEq : monthLengths (isLeap date.year) = lengths
  have months : (lengths.take (date.month - 1)).sum ≤ 366 := by
    have parts := congrArg List.sum (List.take_append_drop (date.month - 1) lengths)
    have year : lengths.sum ≤ 366 := by
      rw [← lengthsEq, sum_monthLengths]
      split <;> decide
    rw [List.sum_append] at parts
    omega
  have sum : (lengths.take (date.month - 1)).foldl Nat.add 0 =
      (lengths.take (date.month - 1)).sum := List.sum_eq_foldl.symm
  rw [toDays, lengthsEq, sum]
  omega

/-- The date of a day gives the day back. -/
theorem toDays_ofDays (days : Int) : (ofDays days).toDays = days := by
  obtain ⟨passed, inMonth, same, _, _, total⟩ := exists_ofDays days
  have sum (lengths : List Nat) : lengths.foldl Nat.add 0 = lengths.sum :=
    List.sum_eq_foldl.symm
  rw [same, toDays]
  simp only [Nat.add_sub_cancel, sum]
  omega

theorem le_year_ofDays {year days : Int} (after : daysBeforeYear year - epochOffset ≤ days) :
    year ≤ (ofDays days).year := by
  have before := (yearOfDay_bounds (days + epochOffset)).2
  refine Int.not_lt.mp fun earlier => ?_
  have earlier : yearOfDay (days + epochOffset) + 1 ≤ year := earlier
  have ends := daysBeforeYear_mono earlier
  omega

theorem year_ofDays_lt {year days : Int} (before : days < daysBeforeYear year - epochOffset) :
    (ofDays days).year < year := by
  have after := (yearOfDay_bounds (days + epochOffset)).1
  refine Int.not_le.mp fun later => ?_
  have later : year ≤ yearOfDay (days + epochOffset) := later
  have begins := daysBeforeYear_mono later
  omega

end Sieve.Time.Date
