import Sieve.Json.Fault

/-! Numbers in JSON text. A number without point and exponent that fits 64 binary digits is whole;
every other is read into a significand of 64 binary digits and scaled by a power of ten, which
rounds twice where the significand is long. -/
namespace Sieve.Json

/-- Feeds digits into a significand until one more would exceed 64 binary digits; the second part
holds the digits left over. -/
def fillSignificand (value : Nat) : List Char → Nat × List Char
  | [] => (value, [])
  | c :: rest =>
    let next := 10 * value + Text.digitValue c
    if naturalBound < next then (value, c :: rest) else fillSignificand next rest

def powerOfTen (n : Nat) : Binary64 :=
  (Binary64.ofRatio? false (Nat.pow 10 n) 1).getD (Binary64.zero false)

/-- Multiplies by a power of ten, none where the product is infinite. Powers below 10^-308 are
divided out in steps; three of them exhaust every significand. -/
def scaleByTen : Nat → Binary64 → Int → Option Binary64
  | steps, x, exponent =>
    if exponent.natAbs ≤ 308 then
      if 0 ≤ exponent then x.multiply? (powerOfTen exponent.natAbs)
      else x.divide? (powerOfTen exponent.natAbs)
    else if x.isZero then some x
    else if 0 < exponent then none
    else match steps with
      | 0 => some (Binary64.zero false)
      | n + 1 => (x.divide? (powerOfTen 308)).bind fun y => scaleByTen n y (exponent + 308)

def fromParts (negative : Bool) (significand : Nat) (exponent : Int) :
    Except Fault Number :=
  match (Binary64.ofRatio? false significand 1).bind fun x => scaleByTen 3 x exponent with
  | some x => .ok (.real { x with negative := negative })
  | none => .error .numberOutOfRange

/-- A number without point and exponent, all of whose digits fit the significand. Minus zero and
what lies below 64 binary digits in two's complement are binary64 numbers. -/
def wholeNumber (negative : Bool) (significand : Nat) : Number :=
  if negative then
    if 0 < significand && significand ≤ Nat.pow 2 63 then .whole (-(significand : Int))
    else match Binary64.ofRatio? true significand 1 with
      | some x => .real x
      | none => .whole (-(significand : Int))
  else .whole significand

def afterExponentLetter (negative : Bool) (significand : Nat) (exponent : Int)
    (s : List Char) : Except Fault (Number × List Char) :=
  let (minus, s) :=
    match s with
    | '+' :: rest => (false, rest)
    | '-' :: rest => (true, rest)
    | _ => (false, s)
  match s with
  | [] => .error .endInValue
  | c :: _ =>
    if c.isDigit then
      let written : Int := Text.ofDigits (s.takeWhile Char.isDigit)
      let exponent := if minus then exponent - written else exponent + written
      (fromParts negative significand exponent).map (·, s.dropWhile Char.isDigit)
    else .error .invalidNumber

def afterDigits (negative : Bool) (significand : Nat) (exponent : Int) :
    List Char → Except Fault (Number × List Char)
  | 'e' :: rest | 'E' :: rest => afterExponentLetter negative significand exponent rest
  | rest => (fromParts negative significand exponent).map (·, rest)

def afterPoint (negative : Bool) (significand : Nat) (exponent : Int) (s : List Char) :
    Except Fault (Number × List Char) :=
  let digits := s.takeWhile Char.isDigit
  let rest := s.dropWhile Char.isDigit
  if digits.isEmpty then .error (if rest.isEmpty then .endInValue else .invalidNumber)
  else
    let (filled, left) := fillSignificand significand digits
    afterDigits negative filled (exponent - ((digits.length : Int) - left.length)) rest

def afterWhole (negative : Bool) (significand : Nat) (left : List Char) (s : List Char) :
    Except Fault (Number × List Char) :=
  match s with
  | '.' :: rest => afterPoint negative significand left.length rest
  | 'e' :: rest | 'E' :: rest => afterExponentLetter negative significand left.length rest
  | rest =>
    if left.isEmpty then .ok (wholeNumber negative significand, rest)
    else (fromParts negative significand left.length).map (·, rest)

def unsignedNumber (negative : Bool) (s : List Char) : Except Fault (Number × List Char) :=
  match s with
  | [] => .error .endInValue
  | '0' :: rest =>
    match rest with
    | c :: _ => if c.isDigit then .error .invalidNumber else afterWhole negative 0 [] rest
    | [] => afterWhole negative 0 [] rest
  | c :: _ =>
    if c.isDigit then
      let (filled, left) := fillSignificand 0 (s.takeWhile Char.isDigit)
      afterWhole negative filled left (s.dropWhile Char.isDigit)
    else .error .invalidNumber

end Sieve.Json
