import Mathlib.Tactic.Ring
import Sieve.Number.Shortest

/-! Which quotients are rounded to a number: those in the gap around it. -/
namespace Sieve.Binary64

/-- A quotient of `n` by a step that lies within half a step of `m`, where the middles belong to the
even numbers. -/
structure Around (m step n : Nat) : Prop where
  lower : 2 * (m * step) ≤ 2 * n + step
  upper : 2 * n ≤ 2 * (m * step) + step
  odd : m % 2 = 1 → 2 * (m * step) < 2 * n + step ∧ 2 * n < 2 * (m * step) + step

theorem Around.divideToEven_eq {m step n : Nat} (around : Around m step n) (positive : 0 < step) :
    divideToEven n step = m := by
  obtain ⟨lower, upper, odd⟩ := around
  have whole : step * (n / step) + n % step = n := Nat.div_add_mod n step
  have small : n % step < step := Nat.mod_lt n positive
  unfold divideToEven
  generalize n / step = q at whole ⊢
  generalize n % step = r at whole small ⊢
  -- The quotient lies within half a step of `m`, so `m` is one of the two whole numbers next to it.
  have above : m < q + 2 := by
    by_contra far
    have bound : (q + 2) * step ≤ m * step := Nat.mul_le_mul_right step (Nat.not_lt.mp far)
    rw [Nat.add_mul, Nat.mul_comm q step] at bound
    omega
  have below : q < m + 1 := by
    by_contra far
    have bound : (m + 1) * step ≤ q * step := Nat.mul_le_mul_right step (Nat.not_lt.mp far)
    rw [Nat.add_mul, Nat.mul_comm q step] at bound
    omega
  obtain rfl | rfl : m = q ∨ m = q + 1 := by omega
  · rw [Nat.mul_comm m step] at upper odd
    grind
  · rw [Nat.add_mul, Nat.mul_comm q step] at lower odd
    grind

/-- The whole number that the fraction and, unless the number is below the normal ones, the leading
digit make up. -/
def significand (code : Nat) : Nat :=
  if code / fractionCount = 0 then code else fractionCount + code % fractionCount

def scale (code : Nat) : Nat :=
  code / fractionCount - 1

theorem fractionCount_eq : fractionCount = 2 ^ 52 := rfl

theorem unitsOfCode_eq (code : Nat) : unitsOfCode code = significand code * 2 ^ scale code := by
  unfold unitsOfCode significand scale
  split
  next below => rw [below, Nat.pow_zero, Nat.mul_one]
  next => rfl

theorem scale_mul_add_significand (code : Nat) :
    scale code * fractionCount + significand code = code := by
  have whole := Nat.div_add_mod code fractionCount
  unfold significand scale
  split
  next below => rw [below, Nat.zero_sub, Nat.zero_mul, Nat.zero_add]
  next normal =>
    obtain ⟨exponent, same⟩ := Nat.exists_eq_succ_of_ne_zero normal
    rw [same, Nat.mul_succ, Nat.mul_comm fractionCount exponent] at whole
    rw [same, Nat.succ_sub_one]
    omega

theorem significand_lt (code : Nat) : significand code < 2 * fractionCount := by
  unfold significand
  split
  next below =>
    have small := (Nat.div_eq_zero_iff_lt (by decide)).mp below
    omega
  next =>
    have small := Nat.mod_lt code (y := fractionCount) (by decide)
    omega

theorem fractionCount_le_significand {code : Nat} (scaled : scale code ≠ 0) :
    fractionCount ≤ significand code := by
  unfold scale at scaled
  rw [significand, if_neg (by omega)]
  exact Nat.le_add_right _ _

theorem significand_mod_two (code : Nat) : significand code % 2 = code % 2 := by
  have whole := scale_mul_add_significand code
  rw [fractionCount_eq] at whole
  omega

def unitsOfOne : Nat := Nat.pow 2 1074

theorem codeOfRatio_eq (n d : Nat) :
    codeOfRatio n d = ((n * unitsOfOne / d).log2 - 52) * fractionCount +
      divideToEven (n * unitsOfOne) (d * 2 ^ ((n * unitsOfOne / d).log2 - 52)) := by
  delta codeOfRatio unitsOfOne
  exact Eq.refl _

/-- Whether `n / d` lies in a gap, which is given in quarters of a unit. The ends belong to the gap if
it is closed. -/
def Gap.Contains (g : Gap) (n d : Nat) : Prop :=
  if g.closed then g.lower * d ≤ 4 * (n * unitsOfOne) ∧ 4 * (n * unitsOfOne) ≤ g.upper * d
  else g.lower * d < 4 * (n * unitsOfOne) ∧ 4 * (n * unitsOfOne) < g.upper * d

/-- The ends of the gap around a number, in quarters of its step: two on either side, but only one
below a power of two. -/
theorem gap_ends (x : Binary64) :
    4 * (significand x.code * 2 ^ scale x.code) ≤ x.gap.lower + 2 * 2 ^ scale x.code ∧
      (scale x.code ≠ 0 → significand x.code = fractionCount →
        4 * (significand x.code * 2 ^ scale x.code) ≤ x.gap.lower + 2 ^ scale x.code) ∧
      x.gap.upper = 4 * (significand x.code * 2 ^ scale x.code) + 2 * 2 ^ scale x.code := by
  have step : x.step = 2 ^ scale x.code := rfl
  have units : x.units = significand x.code * 2 ^ scale x.code := unitsOfCode_eq x.code
  simp only [gap, step, units]
  refine ⟨?_, fun scaled power => ?_, trivial⟩
  · split <;> omega
  · have isPower : x.code % fractionCount = 0 ∧ 1 < x.code / fractionCount := by
      unfold scale at scaled
      rw [significand, if_neg (by omega)] at power
      omega
    rw [if_pos (by simpa using isPower)]
    omega

theorem around_of_contains {x : Binary64} {n d : Nat} (inside : x.gap.Contains n d) :
    Around (significand x.code) (d * 2 ^ scale x.code) (n * unitsOfOne) := by
  obtain ⟨lower, _, upper⟩ := gap_ends x
  have lowerBy := Nat.mul_le_mul_right d lower
  have closed : x.gap.closed = (x.code % 2 == 0) := rfl
  rw [Gap.Contains, upper, closed] at inside
  have products : significand x.code * 2 ^ scale x.code * d =
      significand x.code * (d * 2 ^ scale x.code) := by ring
  have step : 2 ^ scale x.code * d = d * 2 ^ scale x.code := Nat.mul_comm _ _
  simp only [Nat.add_mul, Nat.mul_assoc 4, Nat.mul_assoc 2, products, step] at inside lowerBy
  have parity := significand_mod_two x.code
  split at inside
  next even =>
    have even : x.code % 2 = 0 := by simpa using even
    constructor <;> omega
  next => constructor <;> omega

theorem quarter_of_contains {x : Binary64} {n d : Nat} (inside : x.gap.Contains n d)
    (scaled : scale x.code ≠ 0) (power : significand x.code = fractionCount) :
    4 * (fractionCount * (d * 2 ^ scale x.code)) ≤
      4 * (n * unitsOfOne) + d * 2 ^ scale x.code := by
  have narrow := (gap_ends x).2.1 scaled power
  have lowerBy := Nat.mul_le_mul_right d narrow
  have least : x.gap.lower * d ≤ 4 * (n * unitsOfOne) := by
    rw [Gap.Contains] at inside
    split at inside
    · exact inside.1
    · exact inside.1.le
  rw [power, Nat.add_mul, Nat.mul_assoc 4, Nat.mul_assoc fractionCount,
    Nat.mul_comm (2 ^ scale x.code) d] at lowerBy
  omega

theorem log2_sub_eq {a k : Nat} (upper : a < 2 ^ (53 + k)) (lower : k ≠ 0 → 2 ^ (52 + k) ≤ a) :
    a.log2 - 52 = k := by
  by_cases least : k = 0
  · subst least
    by_cases zero : a = 0
    · rw [zero, Nat.log2_zero]
    · have below := (Nat.log2_lt zero).mpr upper
      omega
  · have positive : a ≠ 0 := by
      have power := Nat.two_pow_pos (52 + k)
      have bound := lower least
      omega
    have exact := (Nat.log2_eq_iff positive).mpr
      ⟨lower least, by rwa [Nat.add_right_comm 52 k 1]⟩
    omega

theorem codeOfRatio_of_around {m k n d : Nat} (positive : 0 < d)
    (around : Around m (d * 2 ^ k) (n * unitsOfOne))
    (upper : n * unitsOfOne < 2 * fractionCount * (d * 2 ^ k))
    (lower : k ≠ 0 → fractionCount * (d * 2 ^ k) ≤ n * unitsOfOne) :
    codeOfRatio n d = k * fractionCount + m := by
  have shift : (n * unitsOfOne / d).log2 - 52 = k := by
    apply log2_sub_eq
    · rw [Nat.div_lt_iff_lt_mul positive]
      calc n * unitsOfOne < 2 * fractionCount * (d * 2 ^ k) := upper
        _ = 2 ^ (53 + k) * d := by rw [fractionCount_eq]; ring
    · intro scaled
      rw [Nat.le_div_iff_mul_le positive]
      calc 2 ^ (52 + k) * d = fractionCount * (d * 2 ^ k) := by rw [fractionCount_eq]; ring
        _ ≤ n * unitsOfOne := lower scaled
  rw [codeOfRatio_eq, shift, around.divideToEven_eq (Nat.mul_pos positive (Nat.two_pow_pos k))]

/-- Every quotient in the gap around a number is rounded to the number. -/
theorem codeOfRatio_of_contains {x : Binary64} {n d : Nat} (positive : 0 < d)
    (inside : x.gap.Contains n d) : codeOfRatio n d = x.code := by
  have around := around_of_contains inside
  have small := significand_lt x.code
  have whole := scale_mul_add_significand x.code
  have step : 0 < d * 2 ^ scale x.code := Nat.mul_pos positive (Nat.two_pow_pos _)
  by_cases below : scale x.code ≠ 0 ∧ n * unitsOfOne < fractionCount * (d * 2 ^ scale x.code)
  · -- Below a power of two the steps are half as long.
    obtain ⟨scaled, below⟩ := below
    have atLeast := fractionCount_le_significand scaled
    have lower := around.lower
    have power : significand x.code = fractionCount := by
      by_contra more
      have bound := Nat.mul_le_mul_right (d * 2 ^ scale x.code)
        (show fractionCount + 1 ≤ significand x.code by omega)
      rw [Nat.add_mul, Nat.one_mul] at bound
      omega
    have quarter := quarter_of_contains inside scaled power
    obtain ⟨k, same⟩ := Nat.exists_eq_succ_of_ne_zero scaled
    have half : d * 2 ^ scale x.code = 2 * (d * 2 ^ k) := by
      rw [same, Nat.pow_succ]
      ring
    have whole' : fractionCount * (2 * (d * 2 ^ k)) = 2 * (fractionCount * (d * 2 ^ k)) := by ring
    rw [half, whole'] at below quarter
    have code : k * fractionCount + 2 * fractionCount = x.code := by
      rw [same, power, Nat.succ_mul] at whole
      omega
    rw [← code]
    apply codeOfRatio_of_around positive
    · constructor
      · rw [Nat.mul_assoc]
        omega
      · rw [Nat.mul_assoc]
        omega
      · intro odd
        omega
    · rw [Nat.mul_assoc]
      omega
    · intro _
      have room : d * 2 ^ k ≤ fractionCount * (d * 2 ^ k) :=
        Nat.le_mul_of_pos_left _ (by decide)
      omega
  · rw [← whole]
    apply codeOfRatio_of_around positive around
    · have most := Nat.mul_le_mul_right (d * 2 ^ scale x.code) (Nat.le_sub_one_of_lt small)
      have upper := around.upper
      rw [Nat.sub_mul, Nat.one_mul] at most
      have room : d * 2 ^ scale x.code ≤ 2 * fractionCount * (d * 2 ^ scale x.code) :=
        Nat.le_mul_of_pos_left _ (by decide)
      omega
    · intro scaled
      exact Nat.not_lt.mp fun beyond => below ⟨scaled, beyond⟩

end Sieve.Binary64
