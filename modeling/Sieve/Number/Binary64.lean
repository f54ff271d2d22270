/-! The finite numbers of the binary64 format, exact: every one is a whole number of units of
2^-1074. Results between two neighbours go to the nearer, and from the middle to the even one. -/
namespace Sieve

def Binary64.fractionCount : Nat := Nat.pow 2 52

def Binary64.codeLimit : Nat := 2047 * Binary64.fractionCount

/-- A finite binary64 number. The code orders the magnitudes: divided by the number of fractions,
it gives the biased exponent and leaves the fraction. -/
structure Binary64 where
  negative : Bool
  code : Nat
  code_lt : code < Binary64.codeLimit
  deriving DecidableEq

namespace Binary64

/-- How many units of 2^-1074 a magnitude counts. -/
def unitsOfCode (code : Nat) : Nat :=
  if code / fractionCount = 0 then code
  else (fractionCount + code % fractionCount) * Nat.pow 2 (code / fractionCount - 1)

def units (x : Binary64) : Nat :=
  unitsOfCode x.code

def step (x : Binary64) : Nat :=
  Nat.pow 2 (x.code / fractionCount - 1)

def signedUnits (x : Binary64) : Int :=
  if x.negative then -(x.units : Int) else x.units

def divideToEven (n d : Nat) : Nat :=
  let q := n / d
  let r := 2 * (n % d)
  if r < d then q else if d < r then q + 1 else if q % 2 = 0 then q else q + 1

/-- The code nearest to `n / d`, possibly beyond the finite ones. Magnitudes of 2^53 units and
more keep 53 binary digits. -/
def codeOfRatio (n d : Nat) : Nat :=
  let scaled := n * Nat.pow 2 1074
  let shift := (scaled / d).log2 - 52
  shift * fractionCount + divideToEven scaled (d * Nat.pow 2 shift)

def ofCode? (negative : Bool) (code : Nat) : Option Binary64 :=
  if h : code < codeLimit then some ⟨negative, code, h⟩ else none

def ofRatio? (negative : Bool) (n d : Nat) : Option Binary64 :=
  ofCode? negative (codeOfRatio n d)

def zero (negative : Bool) : Binary64 :=
  ⟨negative, 0, by decide⟩

def ofInt? (i : Int) : Option Binary64 :=
  ofRatio? (decide (i < 0)) i.natAbs 1

def isZero (x : Binary64) : Bool :=
  x.code == 0

def multiply? (x y : Binary64) : Option Binary64 :=
  ofRatio? (x.negative != y.negative) (x.units * y.units) (Nat.pow 2 2148)

def divide? (x y : Binary64) : Option Binary64 :=
  ofRatio? (x.negative != y.negative) x.units y.units

def order (x y : Binary64) : Ordering :=
  compare x.signedUnits y.signedUnits

theorem order_self (x : Binary64) : x.order x = .eq := by
  simp [order]

end Binary64

inductive Real64 where
  | finite (x : Binary64)
  | infinite (negative : Bool)
  | nan
  deriving DecidableEq

namespace Real64

def ofOption (negative : Bool) : Option Binary64 → Real64
  | some x => finite x
  | none => infinite negative

def finite? : Real64 → Option Binary64
  | finite x => some x
  | _ => none

def order? : Real64 → Real64 → Option Ordering
  | nan, _ | _, nan => none
  | finite x, finite y => some (x.order y)
  | infinite a, infinite b => some (compare (!a) (!b))
  | infinite a, finite _ => some (if a then .lt else .gt)
  | finite _, infinite b => some (if b then .gt else .lt)

end Real64
end Sieve
