import Sieve.Number.Written
import Sieve.Proofs.Number.Rounding

/-! The shortest decimal of a number lies in the gap around it, and neither its digits nor its power
of ten are out of reach. -/
namespace Sieve.Binary64

/-- Whether a quotient lies in a gap depends on its value alone. -/
theorem Gap.Contains.of_ratio {g : Gap} {n d n' d' : Nat} (positive : 0 < d) (positive' : 0 < d')
    (same : n * d' = n' * d) (inside : g.Contains n d) : g.Contains n' d' := by
  have value : 4 * (n' * unitsOfOne) * d = 4 * (n * unitsOfOne) * d' := by
    calc 4 * (n' * unitsOfOne) * d = 4 * unitsOfOne * (n' * d) := by ring
      _ = 4 * unitsOfOne * (n * d') := by rw [same]
      _ = 4 * (n * unitsOfOne) * d' := by ring
  have order (a : Nat) : a * d' * d = a * d * d' := Nat.mul_right_comm a d' d
  unfold Gap.Contains at inside ⊢
  split
  next closed =>
    rw [if_pos closed] at inside
    obtain ⟨lower, upper⟩ := inside
    constructor
    · apply Nat.le_of_mul_le_mul_right _ positive
      rw [order, value]
      exact Nat.mul_le_mul_right d' lower
    · apply Nat.le_of_mul_le_mul_right _ positive
      rw [order, value]
      exact Nat.mul_le_mul_right d' upper
  next closed =>
    rw [if_neg closed] at inside
    obtain ⟨lower, upper⟩ := inside
    constructor
    · apply Nat.lt_of_mul_lt_mul_right (a := d)
      rw [order, value]
      exact Nat.mul_lt_mul_of_pos_right lower positive'
    · apply Nat.lt_of_mul_lt_mul_right (a := d)
      rw [order, value]
      exact Nat.mul_lt_mul_of_pos_right upper positive'

theorem quarters_eq : Nat.pow 2 1076 = 4 * unitsOfOne := by
  decide +kernel

theorem unitsOfOne_pos : 0 < unitsOfOne := by
  decide +kernel

theorem Gap.holds_iff {g : Gap} {stretch scale d : Nat} :
    g.holds stretch (scale * Nat.pow 2 1076) d = true ↔ g.Contains (d * scale) stretch := by
  have point : d * (scale * Nat.pow 2 1076) = 4 * (d * scale * unitsOfOne) := by
    rw [quarters_eq]
    ring
  rw [Gap.holds, Gap.Contains, point]
  split <;> simp

def Gap.HoldsDecimal (g : Gap) (d : Nat) (power : Int) : Prop :=
  g.Contains (d * 10 ^ power.toNat) (10 ^ (-power).toNat)

theorem Gap.holdsDecimal_of_onGrid? {g : Gap} {power : Int} {d : Nat}
    (found : g.onGrid? power = some d) : g.HoldsDecimal d power := by
  have held (d : Nat) (holds : g.holds (Nat.pow 10 (-power).toNat)
      (Nat.pow 10 power.toNat * Nat.pow 2 1076) d = true) : g.HoldsDecimal d power :=
    Gap.holds_iff.mp holds
  simp only [Gap.onGrid?] at found
  split at found
  next first second =>
    split at found
    · exact Option.some.inj found ▸ held _ first
    · split at found
      · exact Option.some.inj found ▸ held _ second
      · split at found
        · exact Option.some.inj found ▸ held _ first
        · exact Option.some.inj found ▸ held _ second
  next first _ => exact Option.some.inj found ▸ held _ first
  next _ second => exact Option.some.inj found ▸ held _ second
  next => contradiction

theorem Gap.exists_onGrid? {g : Gap} {power : Int} (ordered : g.lower ≤ g.value)
    (fine : Nat.pow 10 power.toNat * Nat.pow 2 1076 <
      (g.upper - g.value) * Nat.pow 10 (-power).toNat) : ∃ d, g.onGrid? power = some d := by
  simp only [Gap.onGrid?]
  generalize Nat.pow 10 (-power).toNat = stretch at fine ⊢
  have positive : 0 < Nat.pow 10 power.toNat * Nat.pow 2 1076 := by
    rw [quarters_eq]
    exact Nat.mul_pos (Nat.pow_pos (by decide)) (Nat.mul_pos (by decide) unitsOfOne_pos)
  generalize Nat.pow 10 power.toNat * Nat.pow 2 1076 = grid at fine positive ⊢
  -- The point above the number is no further away than one step of the grid.
  have above : g.holds stretch grid (g.value * stretch / grid + 1) = true := by
    have whole := Nat.div_add_mod (g.value * stretch) grid
    have small := Nat.mod_lt (g.value * stretch) positive
    have lower := Nat.mul_le_mul_right stretch ordered
    rw [Nat.sub_mul] at fine
    rw [Gap.holds, Nat.add_mul, Nat.one_mul, Nat.mul_comm _ grid]
    split
    · rw [Bool.and_eq_true, decide_eq_true_iff, decide_eq_true_iff]
      constructor <;> omega
    · rw [Bool.and_eq_true, decide_eq_true_iff, decide_eq_true_iff]
      constructor <;> omega
  rw [above]
  cases g.holds stretch grid (g.value * stretch / grid) with
  | false => exact ⟨_, rfl⟩
  | true =>
    dsimp only
    split
    · exact ⟨_, rfl⟩
    · split
      · exact ⟨_, rfl⟩
      · exact ⟨_, rfl⟩

theorem two_pow_le_ten_pow (k : Nat) : 2 ^ (3 * k) ≤ 10 ^ k := by
  rw [Nat.pow_mul]
  exact Nat.pow_le_pow_left (by decide) k

theorem log2_units_le (x : Binary64) : x.units.log2 ≤ scale x.code + 52 := by
  by_cases zero : x.units = 0
  · rw [zero, Nat.log2_zero]
    exact Nat.zero_le _
  · have bound : x.units < 2 ^ (53 + scale x.code) := by
      calc x.units = significand x.code * 2 ^ scale x.code := unitsOfCode_eq x.code
        _ < 2 * fractionCount * 2 ^ scale x.code :=
          Nat.mul_lt_mul_of_pos_right (significand_lt x.code) (Nat.two_pow_pos _)
        _ = 2 ^ (53 + scale x.code) := by rw [fractionCount_eq]; ring
    have below := (Nat.log2_lt zero).mpr bound
    omega

theorem scale_le (x : Binary64) : scale x.code ≤ 2045 := by
  have bound : x.code / fractionCount < 2047 :=
    (Nat.div_lt_iff_lt_mul (by decide)).mpr x.code_lt
  unfold scale
  omega

theorem powerAbove_le (x : Binary64) : x.powerAbove ≤ 342 := by
  have bits := log2_units_le x
  have large := scale_le x
  simp only [powerAbove]
  split <;> omega

theorem exists_onGrid?_finest (x : Binary64) :
    ∃ d, x.gap.onGrid? (x.powerAbove - (399 : Nat)) = some d := by
  have upper : x.gap.upper - x.gap.value = 2 * 2 ^ scale x.code := Nat.add_sub_cancel_left _ _
  apply Gap.exists_onGrid? (Nat.sub_le _ _)
  have bits := log2_units_le x
  have large := powerAbove_le x
  have enough : 1076 < 3 * (-(x.powerAbove - (399 : Nat))).toNat + 1 + scale x.code := by
    simp only [powerAbove]
    split <;> omega
  have whole : (x.powerAbove - (399 : Nat)).toNat = 0 := by omega
  rw [upper, whole]
  generalize (-(x.powerAbove - (399 : Nat))).toNat = k at enough ⊢
  generalize 1076 = quarters at enough ⊢
  calc Nat.pow 10 0 * Nat.pow 2 quarters = 2 ^ quarters := Nat.one_mul _
    _ < 2 ^ (3 * k + 1 + scale x.code) := Nat.pow_lt_pow_right (by decide) enough
    _ = 2 * 2 ^ scale x.code * 2 ^ (3 * k) := by ring
    _ ≤ 2 * 2 ^ scale x.code * 10 ^ k := Nat.mul_le_mul_left _ (two_pow_le_ten_pow k)

/-- The shortest decimal lies on one of the grids tried. -/
theorem shortest_onGrid (x : Binary64) :
    ∃ i : Nat, x.shortest.2 = x.powerAbove - i ∧
      x.gap.onGrid? x.shortest.2 = some x.shortest.1 := by
  obtain ⟨finest, onFinest⟩ := exists_onGrid?_finest x
  unfold shortest
  dsimp only
  cases found : (List.range 400).findSome? fun (i : Nat) =>
      (x.gap.onGrid? (x.powerAbove - (i : Int))).map (·, x.powerAbove - (i : Int)) with
  | none =>
    have missed := List.findSome?_eq_none_iff.mp found 399 (by decide)
    rw [onFinest] at missed
    contradiction
  | some decimal =>
    obtain ⟨i, _, here⟩ := List.exists_of_findSome?_eq_some found
    obtain ⟨d, onGrid, rfl⟩ := Option.map_eq_some_iff.mp here
    exact ⟨i, rfl, onGrid⟩

theorem lower_pos {x : Binary64} (nonzero : x.code ≠ 0) : 0 < x.gap.lower := by
  have ends := (gap_ends x).1
  have positive : 0 < significand x.code := by
    have whole := scale_mul_add_significand x.code
    by_contra zero
    by_cases scaled : scale x.code = 0
    · rw [scaled, Nat.zero_mul] at whole
      omega
    · have least := fractionCount_le_significand scaled
      have count : 0 < fractionCount := by decide
      omega
  have step := Nat.two_pow_pos (scale x.code)
  have units := Nat.le_mul_of_pos_left (2 ^ scale x.code) positive
  omega

/-- A decimal that is read back as a magnitude, and whose digits and power are within reach. -/
structure ReadsBack (x : Binary64) (d : Nat) (power : Int) : Prop where
  positive : 0 < d
  held : x.gap.HoldsDecimal d power
  power_le : power ≤ 400
  leading : -400 ≤ ((decimalDigits d).length : Int) + power

theorem Gap.HoldsDecimal.lower_le {g : Gap} {d : Nat} {power : Int}
    (held : g.HoldsDecimal d power) :
    g.lower * 10 ^ (-power).toNat ≤ 4 * (d * 10 ^ power.toNat * unitsOfOne) := by
  unfold Gap.HoldsDecimal Gap.Contains at held
  split at held
  · exact held.1
  · exact held.1.le

theorem Gap.HoldsDecimal.pos {g : Gap} {d : Nat} {power : Int} (held : g.HoldsDecimal d power)
    (apart : 0 < g.lower) : 0 < d := by
  have lower := held.lower_le
  have left : 0 < g.lower * 10 ^ (-power).toNat := Nat.mul_pos apart (Nat.pow_pos (by decide))
  by_contra zero
  rw [Nat.eq_zero_of_not_pos zero, Nat.zero_mul, Nat.zero_mul] at lower
  omega

theorem lt_ten_pow_length (d : Nat) : d < 10 ^ (decimalDigits d).length :=
  (Nat.length_toDigits_le_iff (by decide) (Nat.length_toDigits_pos)).mp (Nat.le_refl _)

theorem Gap.HoldsDecimal.leading {g : Gap} {d : Nat} {power : Int}
    (held : g.HoldsDecimal d power) (apart : 0 < g.lower) :
    -400 ≤ ((decimalDigits d).length : Int) + power := by
  by_contra beyond
  have none : power.toNat = 0 := by omega
  have lower := held.lower_le
  rw [none, Nat.pow_zero, Nat.mul_one, Nat.mul_left_comm, ← quarters_eq] at lower
  obtain ⟨places, few, quarters⟩ : ∃ places, places = 359 ∧ Nat.pow 2 1076 ≤ Nat.pow 10 places :=
    ⟨359, rfl, by decide +kernel⟩
  have small : 10 ^ (-power).toNat < 10 ^ ((decimalDigits d).length + places) := by
    calc 10 ^ (-power).toNat ≤ g.lower * 10 ^ (-power).toNat := Nat.le_mul_of_pos_left _ apart
      _ ≤ d * Nat.pow 2 1076 := lower
      _ ≤ d * 10 ^ places := Nat.mul_le_mul_left d quarters
      _ < 10 ^ (decimalDigits d).length * 10 ^ places :=
        Nat.mul_lt_mul_of_pos_right (lt_ten_pow_length d) (Nat.pow_pos (by decide))
      _ = 10 ^ ((decimalDigits d).length + places) := (Nat.pow_add ..).symm
  have exponent := (Nat.pow_lt_pow_iff_right (by decide)).mp small
  omega

theorem readsBack_shortest {x : Binary64} (nonzero : x.code ≠ 0) :
    x.ReadsBack x.shortest.1 x.shortest.2 := by
  obtain ⟨i, power, onGrid⟩ := shortest_onGrid x
  have held := Gap.holdsDecimal_of_onGrid? onGrid
  have large := powerAbove_le x
  have apart := lower_pos nonzero
  exact ⟨held.pos apart, held, by omega, held.leading apart⟩

end Sieve.Binary64
