import Mathlib.Order.Monotone.Defs
import Sieve.Proofs.Number.Rounding

/-! Rounding keeps the order of whole numbers, as far as it keeps them apart. -/
namespace Sieve.Binary64

theorem divideToEven_mono {n n' d : Nat} (le : n ≤ n') : divideToEven n d ≤ divideToEven n' d := by
  have whole := Nat.div_add_mod n d
  have whole' := Nat.div_add_mod n' d
  have quotients : n / d ≤ n' / d := Nat.div_le_div_right le
  unfold divideToEven
  generalize n % d = r at whole ⊢
  generalize n' % d = r' at whole' ⊢
  rcases Nat.lt_or_eq_of_le quotients with less | same
  · -- What is rounded up does not pass the next whole number.
    grind
  · rw [same] at whole ⊢
    have rests : r ≤ r' := by omega
    grind

theorem le_divideToEven {n d m : Nat} (positive : 0 < d) (le : m * d ≤ n) :
    m ≤ divideToEven n d := by
  have quotient : m ≤ n / d := (Nat.le_div_iff_mul_le positive).mpr le
  unfold divideToEven
  grind

theorem divideToEven_le {n d m : Nat} (positive : 0 < d) (lt : n < m * d) :
    divideToEven n d ≤ m := by
  have quotient : n / d < m := (Nat.div_lt_iff_lt_mul positive).mpr lt
  unfold divideToEven
  grind

def shiftOf (n d : Nat) : Nat :=
  (n / d).log2 - 52

theorem lt_of_shiftOf (n : Nat) {d : Nat} (positive : 0 < d) :
    n < 2 * fractionCount * (d * 2 ^ shiftOf n d) := by
  have quotient : n / d < 2 ^ (53 + shiftOf n d) := by
    apply Nat.lt_of_lt_of_le Nat.lt_log2_self
    apply Nat.pow_le_pow_right (by decide)
    unfold shiftOf
    omega
  calc n < 2 ^ (53 + shiftOf n d) * d := (Nat.div_lt_iff_lt_mul positive).mp quotient
    _ = 2 * fractionCount * (d * 2 ^ shiftOf n d) := by rw [fractionCount_eq]; ring

theorem le_of_shiftOf {n d : Nat} (positive : 0 < d) (shifted : shiftOf n d ≠ 0) :
    fractionCount * (d * 2 ^ shiftOf n d) ≤ n := by
  have large : 52 + shiftOf n d = (n / d).log2 := by
    unfold shiftOf at shifted ⊢
    omega
  have nonzero : n / d ≠ 0 := by
    intro zero
    rw [zero, Nat.log2_zero] at large
    omega
  have quotient := Nat.log2_self_le nonzero
  rw [← large, Nat.le_div_iff_mul_le positive] at quotient
  calc fractionCount * (d * 2 ^ shiftOf n d) = 2 ^ (52 + shiftOf n d) * d := by
        rw [fractionCount_eq]; ring
    _ ≤ n := quotient

theorem shiftOf_mono {n n' : Nat} (d : Nat) (le : n ≤ n') : shiftOf n d ≤ shiftOf n' d := by
  have quotients : n / d ≤ n' / d := Nat.div_le_div_right le
  unfold shiftOf
  by_cases zero : n / d = 0
  · rw [zero, Nat.log2_zero]
    exact Nat.zero_le _
  · have nonzero : n' / d ≠ 0 := Nat.ne_of_gt ((Nat.pos_of_ne_zero zero).trans_le quotients)
    have digits : 2 ^ (n / d).log2 ≤ n' / d := (Nat.log2_self_le zero).trans quotients
    exact Nat.sub_le_sub_right ((Nat.le_log2 nonzero).mpr digits) 52

/-- A larger quotient is never rounded to a smaller code. -/
theorem codeOfRatio_mono {n n' d : Nat} (positive : 0 < d) (le : n ≤ n') :
    codeOfRatio n d ≤ codeOfRatio n' d := by
  have units : n * unitsOfOne ≤ n' * unitsOfOne := Nat.mul_le_mul_right unitsOfOne le
  rw [codeOfRatio_eq, codeOfRatio_eq]
  change shiftOf _ d * _ + divideToEven _ (d * 2 ^ shiftOf _ d) ≤
    shiftOf _ d * _ + divideToEven _ (d * 2 ^ shiftOf _ d)
  generalize n * unitsOfOne = a at units ⊢
  generalize n' * unitsOfOne = a' at units ⊢
  have step (k : Nat) : 0 < d * 2 ^ k := Nat.mul_pos positive (Nat.two_pow_pos k)
  rcases Nat.lt_or_eq_of_le (shiftOf_mono d units) with less | same
  · -- The codes of larger steps begin where those of smaller ones end.
    have upper := divideToEven_le (step _) (lt_of_shiftOf a positive)
    have lower := le_divideToEven (step _) (le_of_shiftOf positive (by omega : shiftOf a' d ≠ 0))
    have steps : (shiftOf a d + 1) * fractionCount ≤ shiftOf a' d * fractionCount :=
      Nat.mul_le_mul_right fractionCount less
    rw [Nat.add_mul, Nat.one_mul] at steps
    omega
  · rw [same]
    exact Nat.add_le_add_left (divideToEven_mono units) _

theorem unitsOfCode_strictMono : StrictMono unitsOfCode := by
  intro code code' less
  have whole := scale_mul_add_significand code
  have whole' := scale_mul_add_significand code'
  have scales : scale code ≤ scale code' :=
    Nat.sub_le_sub_right (Nat.div_le_div_right less.le) 1
  rw [unitsOfCode_eq, unitsOfCode_eq]
  rcases Nat.lt_or_eq_of_le scales with smaller | same
  · calc significand code * 2 ^ scale code < 2 * fractionCount * 2 ^ scale code :=
          Nat.mul_lt_mul_of_pos_right (significand_lt code) (Nat.two_pow_pos _)
      _ = fractionCount * 2 ^ (scale code + 1) := by ring
      _ ≤ fractionCount * 2 ^ scale code' :=
          Nat.mul_le_mul_left _ (Nat.pow_le_pow_right (by decide) smaller)
      _ ≤ significand code' * 2 ^ scale code' :=
          Nat.mul_le_mul_right _ (fractionCount_le_significand (by omega))
  · rw [same] at whole ⊢
    exact Nat.mul_lt_mul_of_pos_right (by omega) (Nat.two_pow_pos _)

section
variable {i j : Int} {x y : Binary64}

theorem ofInt?_eq_some (rounded : ofInt? i = some x) :
    x.negative = decide (i < 0) ∧ x.code = codeOfRatio i.natAbs 1 := by
  rw [ofInt?, ofRatio?, ofCode?] at rounded
  split at rounded
  · cases rounded
    exact ⟨rfl, rfl⟩
  · cases rounded

theorem exists_ofInt? (bound : i.natAbs ≤ 18446744073709551616) : ∃ x, ofInt? i = some x := by
  have finite : codeOfRatio 18446744073709551616 1 < codeLimit := by decide +kernel
  have below : codeOfRatio i.natAbs 1 < codeLimit :=
    Nat.lt_of_le_of_lt (codeOfRatio_mono Nat.one_pos bound) finite
  exact ⟨_, dif_pos below⟩

theorem units_le_units (roundedI : ofInt? i = some x) (roundedJ : ofInt? j = some y)
    (le : i.natAbs ≤ j.natAbs) : x.units ≤ y.units := by
  rw [units, units, (ofInt?_eq_some roundedI).2, (ofInt?_eq_some roundedJ).2]
  exact unitsOfCode_strictMono.monotone (codeOfRatio_mono Nat.one_pos le)

theorem signedUnits_ofInt? (rounded : ofInt? i = some x) :
    x.signedUnits = if i < 0 then -(x.units : Int) else x.units := by
  rw [signedUnits, (ofInt?_eq_some rounded).1]
  simp only [decide_eq_true_eq]

theorem signedUnits_mono (roundedI : ofInt? i = some x) (roundedJ : ofInt? j = some y)
    (le : i ≤ j) : x.signedUnits ≤ y.signedUnits := by
  rw [signedUnits_ofInt? roundedI, signedUnits_ofInt? roundedJ]
  split
  next negative =>
    split
    next =>
      have units := units_le_units roundedJ roundedI (by omega)
      omega
    next => omega
  next positive =>
    rw [if_neg (by omega)]
    have units := units_le_units roundedI roundedJ (by omega)
    omega

theorem units_pos (rounded : ofInt? i = some x) (nonzero : i ≠ 0) : 0 < x.units := by
  obtain ⟨one, roundedOne⟩ := @exists_ofInt? 1 (by decide)
  have first : 0 < one.units := by
    rw [units, (ofInt?_eq_some roundedOne).2]
    decide +kernel
  exact Nat.lt_of_lt_of_le first (units_le_units roundedOne rounded (by omega))

theorem eq_of_signedUnits_eq (roundedI : ofInt? i = some x) (roundedJ : ofInt? j = some y)
    (same : x.signedUnits = y.signedUnits) : x = y := by
  obtain ⟨signX, _⟩ := ofInt?_eq_some roundedI
  obtain ⟨signY, _⟩ := ofInt?_eq_some roundedJ
  rw [signedUnits_ofInt? roundedI, signedUnits_ofInt? roundedJ] at same
  have signs : i < 0 ↔ j < 0 := by
    constructor
    · intro negative
      have positive := units_pos roundedI (by omega)
      by_contra notNegative
      rw [if_pos negative, if_neg notNegative] at same
      omega
    · intro negative
      have positive := units_pos roundedJ (by omega)
      by_contra notNegative
      rw [if_neg notNegative, if_pos negative] at same
      omega
  have sign : x.negative = y.negative := by
    rw [signX, signY, decide_eq_decide]
    exact signs
  have code : x.code = y.code := by
    apply unitsOfCode_strictMono.injective
    change x.units = y.units
    simp only [signs] at same
    split at same <;> omega
  cases x
  cases y
  cases sign
  cases code
  rfl

/-- Whole numbers that are not rounded to one number are ordered as the numbers to which they are
rounded. -/
theorem order_ofInt? (roundedI : ofInt? i = some x) (roundedJ : ofInt? j = some y)
    (apart : x ≠ y) : x.order y = compare i j := by
  have differ := mt (eq_of_signedUnits_eq roundedI roundedJ) apart
  rw [order]
  rcases Int.lt_trichotomy i j with less | same | greater
  · have values := signedUnits_mono roundedI roundedJ less.le
    rw [compare_lt_iff_lt.mpr less, compare_lt_iff_lt]
    omega
  · subst same
    exact absurd (Option.some.inj (roundedI.symm.trans roundedJ)) apart
  · have values := signedUnits_mono roundedJ roundedI greater.le
    rw [compare_gt_iff_gt.mpr greater, compare_gt_iff_gt]
    omega

end
end Sieve.Binary64
