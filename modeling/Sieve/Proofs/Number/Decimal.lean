import Mathlib.Data.List.Induction
import Sieve.Number.Reading
import Sieve.Proofs.Number.Shortest
import Sieve.Proofs.Text.Digits

/-! Decimals in positional form and with an exponent, as they are read back: the digits that were
written, perhaps between zeros, with the power of ten that belongs to them. -/
namespace Sieve

theorem Text.ofDigits_concat (digits : List Char) (c : Char) :
    ofDigits (digits ++ [c]) = 10 * ofDigits digits + digitValue c := by
  rw [ofDigits, List.foldl_append]
  rfl

theorem Text.ofDigits_append_zeros (digits : List Char) (count : Nat) :
    ofDigits (digits ++ List.replicate count '0') = ofDigits digits * 10 ^ count := by
  induction count with
  | zero => rw [List.replicate_zero, List.append_nil, Nat.pow_zero, Nat.mul_one]
  | succ count ih =>
    have zero : digitValue '0' = 0 := rfl
    rw [List.replicate_succ', ← List.append_assoc, ofDigits_concat, zero, ih, Nat.pow_succ]
    ring

def IsDigits (s : List Char) : Prop :=
  ∀ c ∈ s, c.isDigit = true

namespace IsDigits

variable {s t : List Char}

theorem append (first : IsDigits s) (second : IsDigits t) : IsDigits (s ++ t) := by
  intro c member
  rcases List.mem_append.mp member with left | right
  · exact first c left
  · exact second c right

theorem zeros (count : Nat) : IsDigits (List.replicate count '0') := by
  intro c member
  rw [List.eq_of_mem_replicate member]
  decide

theorem decimal (n : Nat) : IsDigits (decimalDigits n) :=
  fun _ => isDigit_of_mem_decimalDigits

theorem of_sublist (digits : IsDigits t) (part : s.Sublist t) : IsDigits s :=
  fun c member => digits c (part.subset member)

theorem takeWhile_append (digits : IsDigits s) (ends : Text.EndsDigits t) :
    (s ++ t).takeWhile Char.isDigit = s := by
  rw [List.takeWhile_append_of_pos digits, Text.takeWhile_of_endsDigits ends, List.append_nil]

theorem dropWhile_append (digits : IsDigits s) (ends : Text.EndsDigits t) :
    (s ++ t).dropWhile Char.isDigit = t := by
  rw [List.dropWhile_append_of_pos digits, Text.dropWhile_of_endsDigits ends]

theorem digitValue_lt {c : Char} (digit : c.isDigit = true) : Text.digitValue c < 10 := by
  simp only [Char.isDigit, Bool.and_eq_true, decide_eq_true_eq, UInt32.le_iff_toNat_le] at digit
  have most : c.toNat ≤ 57 := digit.2
  rw [Text.digitValue]
  omega

theorem ofDigits_lt (digits : IsDigits s) : Text.ofDigits s < 10 ^ s.length := by
  induction s using List.reverseRecOn with
  | nil => decide
  | append_singleton s c ih =>
    have below := ih (digits.of_sublist (List.sublist_append_left s [c]))
    have last := digitValue_lt (digits c (by simp))
    rw [Text.ofDigits_concat, List.length_append, List.length_singleton, Nat.pow_succ]
    omega

theorem readDigits?_eq (digits : IsDigits s) (nonempty : s ≠ []) :
    readDigits? s = some (Text.ofDigits s) := by
  have all : s.all Char.isDigit = true := List.all_eq_true.mpr digits
  rw [readDigits?, all]
  simp [nonempty]

end IsDigits

theorem readDigits?_eq_none {s : List Char} {c : Char} (member : c ∈ s)
    (other : c.isDigit = false) : readDigits? s = none := by
  have all : s.all Char.isDigit = false := List.all_eq_false.mpr ⟨c, member, by simp [other]⟩
  rw [readDigits?, all]
  simp

theorem decimalDigits_ne_nil (n : Nat) : decimalDigits n ≠ [] :=
  Nat.toDigits_ne_nil

namespace Decimal

variable {negative : Bool} {whole fraction exponent : List Char}

theorem readUnsigned?_point (wholeDigits : IsDigits whole) (nonempty : whole ≠ [])
    (fractionDigits : IsDigits fraction) :
    readUnsigned? negative (whole ++ '.' :: fraction) =
      some ⟨negative, whole ++ fraction, 0 - (fraction.length : Int)⟩ := by
  have point : Text.EndsDigits ('.' :: fraction) := Text.endsDigits_cons (by decide) fraction
  have fractionTaken := fractionDigits.takeWhile_append Text.endsDigits_nil
  have fractionDropped := fractionDigits.dropWhile_append Text.endsDigits_nil
  rw [List.append_nil] at fractionTaken fractionDropped
  simp only [readUnsigned?, wholeDigits.takeWhile_append point, wholeDigits.dropWhile_append point,
    fractionTaken, fractionDropped]
  rw [if_neg (by simp [nonempty])]

theorem readExponent?_written (exponent : Int) :
    readExponent? ((if exponent < 0 then '-' else '+') :: decimalDigits exponent.natAbs) =
      some exponent := by
  have digits := (IsDigits.decimal exponent.natAbs).readDigits?_eq (decimalDigits_ne_nil _)
  rw [ofDigits_decimalDigits] at digits
  split
  next negative =>
    have value : -(exponent.natAbs : Int) = exponent := by omega
    rw [readExponent?, digits]
    exact congrArg some value
  next positive =>
    have value : (exponent.natAbs : Int) = exponent := by omega
    rw [readExponent?, digits]
    exact congrArg some value

theorem readUnsigned?_scientific {digits : List Char} (areDigits : IsDigits digits)
    (nonempty : digits ≠ []) (exponent : Int) :
    readUnsigned? negative (scientific digits exponent) =
      some ⟨negative, digits, exponent - ((digits.length : Int) - 1)⟩ := by
  obtain ⟨first, rest, rfl⟩ := List.exists_cons_of_ne_nil nonempty
  have firstDigit : IsDigits [first] := areDigits.of_sublist (by simp)
  have restDigits : IsDigits rest := areDigits.of_sublist (List.sublist_cons_self first rest)
  have read := readExponent?_written exponent
  unfold scientific
  generalize (if exponent < 0 then '-' else '+') :: decimalDigits exponent.natAbs = power at read ⊢
  have letter : Text.EndsDigits ('e' :: power) := Text.endsDigits_cons (by decide) power
  cases rest with
  | nil =>
    have taken := firstDigit.takeWhile_append letter
    have dropped := firstDigit.dropWhile_append letter
    simp only [List.cons_append, List.nil_append] at taken dropped
    simp [readUnsigned?, taken, dropped, read]
  | cons second rest =>
    have point : Text.EndsDigits ('.' :: second :: rest ++ 'e' :: power) :=
      Text.endsDigits_cons (by decide) _
    have taken := firstDigit.takeWhile_append point
    have dropped := firstDigit.dropWhile_append point
    have restTaken := restDigits.takeWhile_append letter
    have restDropped := restDigits.dropWhile_append letter
    simp only [List.cons_append, List.nil_append] at taken dropped restTaken restDropped
    simp [readUnsigned?, taken, dropped, restTaken, restDropped, read]

/-- The positional form has a point among the digits, which are filled up with zeros. -/
theorem exists_positional {digits : List Char} (areDigits : IsDigits digits) (place : Int) :
    ∃ whole fraction before after, positional digits place = whole ++ '.' :: fraction ∧
      whole ≠ [] ∧ IsDigits whole ∧ IsDigits fraction ∧
      whole ++ fraction = List.replicate before '0' ++ digits ++ List.replicate after '0' ∧
      (fraction.length : Int) + place = digits.length + after := by
  unfold positional
  split
  next below =>
    refine ⟨['0'], _, (-place).toNat + 1, 0, rfl, by simp, IsDigits.zeros 1,
      (IsDigits.zeros _).append areDigits, ?_, ?_⟩
    · rw [List.replicate_succ]
      simp
    · rw [List.length_append, List.length_replicate]
      omega
  next =>
    dsimp only
    generalize count : place.toNat = n
    have taken : IsDigits (digits.take n ++ List.replicate (n - digits.length) '0') :=
      (areDigits.of_sublist (List.take_sublist n digits)).append (IsDigits.zeros _)
    have nonempty : digits.take n ++ List.replicate (n - digits.length) '0' ≠ [] := by
      intro empty
      have none := congrArg List.length empty
      rw [List.length_append, List.length_take, List.length_replicate, List.length_nil] at none
      omega
    by_cases short : digits.length ≤ n
    · -- All digits stand before the point, and one zero behind it.
      have dropped : digits.drop n = [] := List.drop_eq_nil_of_le short
      rw [dropped]
      refine ⟨_, ['0'], 0, n - digits.length + 1, rfl, nonempty, taken, IsDigits.zeros 1, ?_, ?_⟩
      · rw [List.take_of_length_le short, List.replicate_succ']
        simp
      · rw [List.length_singleton]
        omega
    · have visible : (digits.drop n).isEmpty = false := by
        rw [List.isEmpty_eq_false_iff, Ne, List.drop_eq_nil_iff]
        exact short
      have full : n - digits.length = 0 := by omega
      rw [visible, if_neg Bool.false_ne_true]
      refine ⟨_, digits.drop n, 0, 0, rfl, nonempty, taken,
        areDigits.of_sublist (List.drop_sublist n digits), ?_, ?_⟩
      · rw [full]
        simp
      · rw [List.length_drop]
        omega

/-- The digits of a decimal, perhaps between zeros, with its power of ten. -/
def Pads (digits : List Char) (power : Int) (d : Decimal) : Prop :=
  ∃ before after : Nat,
    d.digits = List.replicate before '0' ++ digits ++ List.replicate after '0' ∧
      d.exponent = power - after

theorem readUnsigned?_positional {digits : List Char} (areDigits : IsDigits digits) (place : Int) :
    ∃ d, readUnsigned? negative (positional digits place) = some d ∧ d.negative = negative ∧
      d.Pads digits (place - digits.length) := by
  obtain ⟨whole, fraction, before, after, written, nonempty, wholeDigits, fractionDigits, digitsIs,
    exponentIs⟩ := exists_positional areDigits place
  refine ⟨_, written ▸ readUnsigned?_point wholeDigits nonempty fractionDigits, rfl, before, after,
    digitsIs, ?_⟩
  dsimp only
  omega

theorem round_of_readsBack {x : Binary64} {n : Nat} {power : Int} (back : x.ReadsBack n power)
    {d : Decimal} (sign : d.negative = x.negative) (pads : d.Pads (decimalDigits n) power) :
    d.round = .finite x := by
  obtain ⟨before, after, digitsIs, exponentIs⟩ := pads
  have value : Text.ofDigits d.digits = n * 10 ^ after := by
    rw [digitsIs, List.append_assoc, Text.ofDigits_zeros, Text.ofDigits_append_zeros,
      ofDigits_decimalDigits]
  have length : d.digits.length = before + (decimalDigits n).length + after := by
    rw [digitsIs, List.length_append, List.length_append, List.length_replicate,
      List.length_replicate]
  have positive : 0 < n * 10 ^ after := Nat.mul_pos back.positive (Nat.pow_pos (by decide))
  have large := back.power_le
  have leading := back.leading
  -- The zeros behind the digits change the power, but not the quotient.
  have inside : x.gap.Contains (n * 10 ^ after * 10 ^ d.exponent.toNat)
      (10 ^ (-d.exponent).toNat) := by
    apply back.held.of_ratio (Nat.pow_pos (by decide)) (Nat.pow_pos (by decide))
    have powers : power.toNat + (-d.exponent).toNat =
        after + d.exponent.toNat + (-power).toNat := by omega
    rw [Nat.mul_assoc, ← Nat.pow_add, powers]
    ring
  have code := Binary64.codeOfRatio_of_contains (Nat.pow_pos (by decide)) inside
  have found : Binary64.ofRatio? x.negative (n * 10 ^ after * 10 ^ d.exponent.toNat)
      (10 ^ (-d.exponent).toNat) = some x := by
    rw [Binary64.ofRatio?, code, Binary64.ofCode?, dif_pos x.code_lt]
  unfold round
  simp only [value, length, sign]
  rw [if_neg (by omega), if_neg (by omega), if_neg (by omega)]
  exact congrArg (Real64.ofOption x.negative) found

theorem readUnsigned?_digits {digits : List Char} (areDigits : IsDigits digits)
    (nonempty : digits ≠ []) : readUnsigned? negative digits = some ⟨negative, digits, 0⟩ := by
  have taken := areDigits.takeWhile_append Text.endsDigits_nil
  have dropped := areDigits.dropWhile_append Text.endsDigits_nil
  rw [List.append_nil] at taken dropped
  simp [readUnsigned?, taken, dropped, nonempty]

theorem round_whole (negative : Bool) (n : Nat) :
    round ⟨negative, decimalDigits n, 0⟩ = .ofOption negative (Binary64.ofRatio? negative n 1) := by
  unfold round
  rw [ofDigits_decimalDigits]
  dsimp only
  by_cases zero : n = 0
  · subst zero
    cases negative <;> decide +kernel
  · rw [if_neg zero, if_neg (by decide), if_neg (by omega), Int.toNat_zero, Int.neg_zero,
      Int.toNat_zero]
    exact congrArg (fun n => Real64.ofOption negative (Binary64.ofRatio? negative n 1))
      (Nat.mul_one n)

end Decimal
end Sieve
