import Sieve.Text.Ascii

/-! Universally unique identifiers in the hyphenated form of 8, 4, 4, 4 and 12 hexadecimal
digits. -/
namespace Sieve

structure Uuid where
  number : Nat
  number_lt : number < Nat.pow 2 128
  deriving DecidableEq

namespace Uuid

def make? (number : Nat) : Option Uuid :=
  if h : number < Nat.pow 2 128 then some ⟨number, h⟩ else none

def groupLengths : List Nat := [8, 4, 4, 4, 12]

def digitGroups? : List Nat → List Char → Option (List Char)
  | [], s => if s.isEmpty then some [] else none
  | [length], s => if s.length = length then some s else none
  | length :: next :: rest, s =>
    if (s.take length).length < length then none
    else match s.drop length with
      | '-' :: tail => (digitGroups? (next :: rest) tail).map (s.take length ++ ·)
      | _ => none

/-- Reads the hyphenated form, its digits in either case. -/
def ofChars? (s : List Char) : Option Uuid :=
  ((digitGroups? groupLengths s).bind Text.ofHex?).bind make?

def parse? (s : String) : Option Uuid :=
  ofChars? s.toList

def hexOf : Nat → Nat → List Char
  | 0, _ => []
  | count + 1, n => hexOf count (n / 16) ++ [Text.hexDigit (n % 16)]

def written (u : Uuid) : List Char :=
  let digits := hexOf 32 u.number
  digits.take 8 ++ '-' :: (digits.drop 8).take 4 ++ '-' :: (digits.drop 12).take 4 ++
    '-' :: (digits.drop 16).take 4 ++ '-' :: digits.drop 20

def text (u : Uuid) : String :=
  String.ofList u.written

def order (u v : Uuid) : Ordering :=
  compare u.number v.number

end Uuid
end Sieve
