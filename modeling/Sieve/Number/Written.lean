import Sieve.Number.Shortest

/-! How numbers are written: whole numbers in decimal, binary64 numbers by their shortest digits,
in positional form where the leading digit stands for 10^-5 up to 10^15 and with an exponent
elsewhere. -/
namespace Sieve

def decimalDigits (n : Nat) : List Char :=
  Nat.toDigits 10 n

def decimalOfInt (i : Int) : List Char :=
  if i < 0 then '-' :: decimalDigits i.natAbs else decimalDigits i.natAbs

/-- Digits with a point after the first `whole`, filled up with zeros on either side; a point is
always followed by a digit. -/
def positional (digits : List Char) (whole : Int) : List Char :=
  if whole ≤ 0 then '0' :: '.' :: (List.replicate (-whole).toNat '0' ++ digits)
  else
    let n := whole.toNat
    let fraction := digits.drop n
    digits.take n ++ List.replicate (n - digits.length) '0' ++ '.' ::
      (if fraction.isEmpty then ['0'] else fraction)

def scientific (digits : List Char) (exponent : Int) : List Char :=
  digits.take 1 ++ (if digits.length ≤ 1 then [] else '.' :: digits.drop 1) ++
    'e' :: (if exponent < 0 then '-' else '+') :: decimalDigits exponent.natAbs

def isPositional (exponent : Int) : Bool :=
  -5 ≤ exponent && exponent < 16

namespace Binary64

def writtenMagnitude (x : Binary64) : List Char :=
  if x.isZero then ['0', '.', '0']
  else
    let (digits, power) := x.shortest
    let digits := decimalDigits digits
    let exponent := power + (digits.length : Int) - 1
    if isPositional exponent then positional digits (exponent + 1)
    else scientific digits exponent

def written (x : Binary64) : List Char :=
  if x.negative then '-' :: x.writtenMagnitude else x.writtenMagnitude

end Binary64

def Real64.written : Real64 → List Char
  | .finite x => x.written
  | .infinite negative => if negative then ['-', 'i', 'n', 'f'] else ['i', 'n', 'f']
  | .nan => ['N', 'a', 'N']

end Sieve
