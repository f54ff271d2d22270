/-! Letters compared without regard to ASCII case, and the ASCII digits. -/
namespace Sieve.Text

/-- Equality up to the case of the letters `A` to `Z`; other letters keep their case. -/
def sameIgnoringCase (s t : String) : Bool :=
  s.toList.map Char.toLower == t.toList.map Char.toLower

theorem sameIgnoringCase_comm (s t : String) : sameIgnoringCase s t = sameIgnoringCase t s := by
  simp only [sameIgnoringCase, Bool.beq_comm]

theorem sameIgnoringCase_trans {s t u : String} (first : sameIgnoringCase s t = true)
    (second : sameIgnoringCase t u = true) : sameIgnoringCase s u = true := by
  rw [sameIgnoringCase, beq_iff_eq] at first second ⊢
  rw [first, second]

def digitValue (c : Char) : Nat :=
  c.toNat - 48

def ofDigits (digits : List Char) : Nat :=
  digits.foldl (fun value c => 10 * value + digitValue c) 0

def hexValue? (c : Char) : Option Nat :=
  if c.isDigit then some (c.toNat - 48)
  else if 'a' ≤ c ∧ c ≤ 'f' then some (c.toNat - 87)
  else if 'A' ≤ c ∧ c ≤ 'F' then some (c.toNat - 55)
  else none

def ofHex? (digits : List Char) : Option Nat :=
  digits.foldlM (fun value c => (hexValue? c).map (16 * value + ·)) 0

def hexDigit (n : Nat) : Char :=
  if n < 10 then Char.ofNat (48 + n) else Char.ofNat (87 + n)

end Sieve.Text
