import Sieve.Uuid

/-! Identifiers are read back from their text. -/
namespace Sieve

namespace Text

theorem hexValue?_hexDigit {n : Nat} (small : n < 16) : hexValue? (hexDigit n) = some n := by
  have each : ∀ m < 16, hexValue? (hexDigit m) = some m := by decide
  exact each n small

theorem ofHex?_concat (digits : List Char) (c : Char) :
    ofHex? (digits ++ [c]) =
      (ofHex? digits).bind fun value => (hexValue? c).map (16 * value + ·) := by
  simp [ofHex?, List.foldlM_append]

end Text

namespace Uuid

theorem length_hexOf (count n : Nat) : (hexOf count n).length = count := by
  induction count generalizing n with
  | zero => rfl
  | succ count ih => rw [hexOf, List.length_append, ih, List.length_singleton]

/-- The lowest digits of a number name what is left of it by a power of sixteen. -/
theorem ofHex?_hexOf (count n : Nat) :
    Text.ofHex? (hexOf count n) = some (n % Nat.pow 16 count) := by
  induction count generalizing n with
  | zero =>
    rw [Nat.pow_eq, Nat.pow_zero, Nat.mod_one]
    rfl
  | succ count ih =>
    have last : Text.hexValue? (Text.hexDigit (n % 16)) = some (n % 16) :=
      Text.hexValue?_hexDigit (Nat.mod_lt n (by decide))
    have value : 16 * (n / 16 % Nat.pow 16 count) + n % 16 = n % Nat.pow 16 (count + 1) := by
      rw [Nat.pow_eq, Nat.pow_eq, Nat.pow_succ', Nat.mod_mul, Nat.add_comm]
    rw [hexOf, Text.ofHex?_concat, ih, Option.bind_some, last, Option.map_some, value]

theorem digitGroups?_cons {length next : Nat} {rest : List Nat} {group tail digits : List Char}
    (complete : group.length = length) (read : digitGroups? (next :: rest) tail = some digits) :
    digitGroups? (length :: next :: rest) (group ++ '-' :: tail) = some (group ++ digits) := by
  subst complete
  rw [digitGroups?, List.take_left, if_neg (Nat.lt_irrefl _), List.drop_left]
  simp only [read, Option.map_some]

theorem digitGroups?_last {length : Nat} {group : List Char} (complete : group.length = length) :
    digitGroups? [length] group = some group := by
  rw [digitGroups?, if_pos complete]

theorem digitGroups?_written (u : Uuid) :
    digitGroups? groupLengths u.written = some (hexOf 32 u.number) := by
  have complete : (hexOf 32 u.number).length = 32 := length_hexOf 32 u.number
  unfold written
  generalize hexOf 32 u.number = digits at complete
  have groups : digits = digits.take 8 ++ ((digits.drop 8).take 4 ++ ((digits.drop 12).take 4 ++
      ((digits.drop 16).take 4 ++ digits.drop 20))) := by
    have split (start : Nat) :
        (digits.drop start).take 4 ++ digits.drop (start + 4) = digits.drop start := by
      rw [← List.drop_drop, List.take_append_drop]
    rw [split 16, split 12, split 8, List.take_append_drop]
  refine Eq.trans ?_ (congrArg some groups.symm)
  simp only [List.append_assoc, List.cons_append]
  apply digitGroups?_cons (by rw [List.length_take]; omega)
  apply digitGroups?_cons (by rw [List.length_take, List.length_drop]; omega)
  apply digitGroups?_cons (by rw [List.length_take, List.length_drop]; omega)
  apply digitGroups?_cons (by rw [List.length_take, List.length_drop]; omega)
  apply digitGroups?_last
  rw [List.length_drop]
  omega

/-- An identifier is what its text is read as. -/
theorem parse?_text (u : Uuid) : parse? u.text = some u := by
  have number : u.number % Nat.pow 16 32 = u.number := Nat.mod_eq_of_lt u.number_lt
  rw [parse?, text, String.toList_ofList, ofChars?, digitGroups?_written, Option.bind_some,
    ofHex?_hexOf, number, Option.bind_some, make?, dif_pos u.number_lt]

end Uuid
end Sieve
