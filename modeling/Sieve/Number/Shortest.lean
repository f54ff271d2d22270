import Sieve.Number.Binary64

/-! Shortest decimals: of all decimals that read back as a number, one with the fewest digits,
and among those the nearest. -/
namespace Sieve.Binary64

structure Gap where
  lower : Nat
  value : Nat
  upper : Nat
  closed : Bool

/-- The decimals that read back as this magnitude. The gap below a power of two is half as wide as
the one above; the middles read back as the number itself when its code is even. -/
def gap (x : Binary64) : Gap :=
  let value := 4 * x.units
  let below := if x.code % fractionCount = 0 && 1 < x.code / fractionCount then x.step else 2 * x.step
  ⟨value - below, value, value + 2 * x.step, x.code % 2 == 0⟩

def Gap.holds (g : Gap) (stretch grid d : Nat) : Bool :=
  let point := d * grid
  if g.closed then g.lower * stretch ≤ point && point ≤ g.upper * stretch
  else g.lower * stretch < point && point < g.upper * stretch

/-- The multiple of 10^`power` that reads back, if there is one: of the two neighbours of the
number on that grid the nearer, and from the middle the even one. -/
def Gap.onGrid? (g : Gap) (power : Int) : Option Nat :=
  let stretch := Nat.pow 10 (-power).toNat
  let grid := Nat.pow 10 power.toNat * Nat.pow 2 1076
  let target := g.value * stretch
  let d := target / grid
  let remainder := 2 * (target % grid)
  match g.holds stretch grid d, g.holds stretch grid (d + 1) with
  | true, true =>
    if remainder < grid then some d
    else if grid < remainder then some (d + 1)
    else some (if d % 2 = 0 then d else d + 1)
  | true, false => some d
  | false, true => some (d + 1)
  | false, false => none

def powerAbove (x : Binary64) : Int :=
  let bits := x.units.log2
  if 1073 ≤ bits then ((bits - 1073) / 3 + 1 : Nat) else -(((1073 - bits) / 4 : Nat) : Int)

/-- The shortest decimal of a number other than zero, as `digits · 10^power`: the coarsest grid
that has a point reading back. -/
def shortest (x : Binary64) : Nat × Int :=
  let g := x.gap
  ((List.range 400).findSome? fun (i : Nat) =>
    let power := x.powerAbove - (i : Int)
    (g.onGrid? power).map (·, power)).getD (0, 0)

end Sieve.Binary64
