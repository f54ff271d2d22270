import Sieve.Text.Ascii
import Sieve.Text.Blank
import Sieve.Time.Instant

/-! Digits that are read back: decimal numbers, with or without zeros in front. -/
namespace Sieve

theorem isDigit_of_mem_decimalDigits {n : Nat} {c : Char} (member : c ∈ decimalDigits n) :
    c.isDigit = true :=
  Nat.isDigit_of_mem_toDigits (by decide) (by decide) member

theorem ofDigits_decimalDigits (n : Nat) : Text.ofDigits (decimalDigits n) = n := by
  have inverse : Nat.ofDigitChars 10 (decimalDigits n) 0 = n := Nat.ofDigitChars_ten_toDigits
  rw [Nat.ofDigitChars_eq_foldl] at inverse
  exact inverse

namespace Text

theorem ofDigits_zeros (count : Nat) (digits : List Char) :
    ofDigits (List.replicate count '0' ++ digits) = ofDigits digits := by
  induction count with
  | zero => rfl
  | succ count ih =>
    rw [← ih, List.replicate_succ, List.cons_append]
    rfl

theorem isBlank_of_isDigit {c : Char} (digit : c.isDigit = true) : isBlank c = false := by
  simp only [Char.isDigit, Bool.and_eq_true, decide_eq_true_eq, ge_iff_le, UInt32.le_iff_toNat_le]
    at digit
  have least : 48 ≤ c.toNat := digit.1
  have most : c.toNat ≤ 57 := digit.2
  exact isBlank_of_printing (by omega) (by omega)

def EndsDigits (s : List Char) : Prop :=
  ∀ c ∈ s.head?, c.isDigit = false

theorem endsDigits_nil : EndsDigits [] := nofun

theorem endsDigits_cons {c : Char} (noDigit : c.isDigit = false) (s : List Char) :
    EndsDigits (c :: s) := by
  rintro _ ⟨⟩
  exact noDigit

theorem takeWhile_of_endsDigits {s : List Char} (ends : EndsDigits s) :
    s.takeWhile Char.isDigit = [] := by
  cases s with
  | nil => rfl
  | cons c s => exact List.takeWhile_cons_of_neg (by simp [ends c rfl])

theorem dropWhile_of_endsDigits {s : List Char} (ends : EndsDigits s) :
    s.dropWhile Char.isDigit = s := by
  cases s with
  | nil => rfl
  | cons c s => exact List.dropWhile_cons_of_neg (by simp [ends c rfl])

theorem EndsDigits.take {s : List Char} (ends : EndsDigits s) (count : Nat) :
    EndsDigits (s.take count) := by
  cases s with
  | nil => rwa [List.take_nil]
  | cons c s =>
    cases count with
    | zero => exact endsDigits_nil
    | succ count => exact endsDigits_cons (ends c rfl) (s.take count)

end Text

namespace Time.Instant

theorem isDigit_of_mem_padded {width n : Nat} {c : Char} (member : c ∈ padded width n) :
    c.isDigit = true := by
  rcases List.mem_append.mp member with zero | digit
  · rw [List.eq_of_mem_replicate zero]
    decide
  · exact isDigit_of_mem_decimalDigits digit

theorem ofDigits_padded (width n : Nat) : Text.ofDigits (padded width n) = n := by
  rw [padded, Text.ofDigits_zeros, ofDigits_decimalDigits]

theorem width_le_length_padded (width n : Nat) : width ≤ (padded width n).length := by
  rw [padded, List.length_append, List.length_replicate]
  omega

theorem exists_padded {width n : Nat} (positive : 0 < width) :
    ∃ c digits, padded width n = c :: digits ∧ c.isDigit = true := by
  have wide := width_le_length_padded width n
  cases same : padded width n with
  | nil =>
    rw [same, List.length_nil] at wide
    omega
  | cons c digits =>
    refine ⟨c, digits, rfl, ?_⟩
    apply @isDigit_of_mem_padded width n
    rw [same]
    exact List.mem_cons_self

theorem length_padded {width n : Nat} (positive : 0 < width) (fits : n < Nat.pow 10 width) :
    (padded width n).length = width := by
  have short : (decimalDigits n).length ≤ width :=
    (Nat.length_toDigits_le_iff (by decide) positive).mpr fits
  rw [padded, List.length_append, List.length_replicate]
  omega

end Time.Instant
end Sieve
