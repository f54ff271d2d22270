import Sieve.Number.Binary64
import Sieve.Text.Ascii

/-! Numbers read from text as a whole: integers within bounds, and decimals rounded correctly. -/
namespace Sieve

inductive IntegerFault where
  | empty
  | notDigit
  | tooLarge
  deriving DecidableEq

namespace IntegerFault

def message : IntegerFault → String
  | empty => "cannot parse integer from empty string"
  | notDigit => "invalid digit found in string"
  | tooLarge => "number too large to fit in target type"

end IntegerFault

/-- Reads digits up to a bound; the first digit that is none, or that exceeds the bound, decides. -/
def digitsUpTo (bound : Nat) (value : Nat) : List Char → Except IntegerFault Nat
  | [] => .ok value
  | c :: rest =>
    if c.isDigit then
      let value := 10 * value + Text.digitValue c
      if bound < value then .error .tooLarge else digitsUpTo bound value rest
    else .error .notDigit

def naturalBound : Nat := Nat.pow 2 64 - 1

def readNatural (s : List Char) : Except IntegerFault Nat :=
  match s with
  | [] => .error .empty
  | ['+'] => .error .notDigit
  | '+' :: digits => digitsUpTo naturalBound 0 digits
  | digits => digitsUpTo naturalBound 0 digits

def fitsInt64 (i : Int) : Bool :=
  -9223372036854775808 ≤ i && i < 9223372036854775808

def readDigits? (s : List Char) : Option Nat :=
  if s.isEmpty || !s.all Char.isDigit then none else some (Text.ofDigits s)

def readInt64? (s : List Char) : Option Int :=
  let value? : Option Int :=
    match s with
    | '-' :: digits => (readDigits? digits).map fun n => -(n : Int)
    | '+' :: digits => (readDigits? digits).map fun n => (n : Int)
    | digits => (readDigits? digits).map fun n => (n : Int)
  value?.filter fitsInt64

structure Decimal where
  negative : Bool
  digits : List Char
  exponent : Int

namespace Decimal

/-- The binary64 number nearest to the decimal. Powers of ten out of reach of the format are
decided by the position of the leading digit alone. -/
def round (d : Decimal) : Real64 :=
  let n := Text.ofDigits d.digits
  let leading := (d.digits.length : Int) + d.exponent
  if n = 0 then .finite (Binary64.zero d.negative)
  else if 400 < d.exponent then .infinite d.negative
  else if leading < -400 then .finite (Binary64.zero d.negative)
  else .ofOption d.negative <|
    Binary64.ofRatio? d.negative (n * Nat.pow 10 d.exponent.toNat)
      (Nat.pow 10 (-d.exponent).toNat)

def readExponent? : List Char → Option Int
  | '-' :: digits => (readDigits? digits).map fun n => -(n : Int)
  | '+' :: digits => (readDigits? digits).map fun n => (n : Int)
  | digits => (readDigits? digits).map fun n => (n : Int)

def readUnsigned? (negative : Bool) (s : List Char) : Option Decimal :=
  let whole := s.takeWhile Char.isDigit
  let rest := s.dropWhile Char.isDigit
  let (fraction, rest) :=
    match rest with
    | '.' :: tail => (tail.takeWhile Char.isDigit, tail.dropWhile Char.isDigit)
    | _ => ([], rest)
  if whole.isEmpty && fraction.isEmpty then none
  else
    let decimal exponent : Decimal :=
      ⟨negative, whole ++ fraction, exponent - (fraction.length : Int)⟩
    match rest with
    | [] => some (decimal 0)
    | 'e' :: tail | 'E' :: tail => (readExponent? tail).map decimal
    | _ => none

end Decimal

def readSpecial? (negative : Bool) (s : List Char) : Option Real64 :=
  let name := s.map Char.toLower
  if name = ['n', 'a', 'n'] then some .nan
  else if name = ['i', 'n', 'f'] || name = ['i', 'n', 'f', 'i', 'n', 'i', 't', 'y'] then
    some (.infinite negative)
  else none

def readUnsignedReal? (negative : Bool) (s : List Char) : Option Real64 :=
  match Decimal.readUnsigned? negative s with
  | some d => some d.round
  | none => readSpecial? negative s

def readReal? : List Char → Option Real64
  | '-' :: rest => readUnsignedReal? true rest
  | '+' :: rest => readUnsignedReal? false rest
  | rest => readUnsignedReal? false rest

end Sieve
