import Sieve.Proofs.Text.Digits
import Sieve.Proofs.Text.Trimming
import Sieve.Time.Reading

/-! What the readers of dates and times take from the front of a text that begins with what they
look for. -/
namespace Sieve.Time.Reader

variable {α β : Type}

theorem bind_of_read {first : Reader α} {next : α → Reader β} {s rest : List Char} {a : α}
    (read : first s = some (a, rest)) : (first >>= next) s = next a rest := by
  change ((first s).bind fun step => next step.1 step.2) = _
  rw [read]
  rfl

theorem bind_of_none {first : Reader α} {next : α → Reader β} {s : List Char}
    (refused : first s = none) : (first >>= next) s = none := by
  change ((first s).bind fun step => next step.1 step.2) = _
  rw [refused]
  rfl

theorem whole_of_read {form : Reader Reading} {s : List Char} {r : Reading}
    (read : form s = some (r, [])) : whole form s = r.toInstant? := by
  rw [whole, read]

theorem get_eq (s : List Char) : (get : Reader (List Char)) s = some (s, s) := rfl

theorem set_eq (s rest : List Char) : (set rest : Reader PUnit) s = some (⟨⟩, rest) := rfl

theorem digits_append {least most : Nat} {found rest : List Char}
    (areDigits : ∀ c ∈ found, c.isDigit = true) (enough : least ≤ found.length)
    (ends : found.length = most ∨ found.length ≤ most ∧ Text.EndsDigits rest) :
    digits least most (found ++ rest) = some (found, rest) := by
  have taken : ((found ++ rest).take most).takeWhile Char.isDigit = found := by
    rcases ends with all | ⟨fits, ends⟩
    · rw [← all, List.take_left, List.takeWhile_eq_self_iff]
      exact areDigits
    · rw [List.take_append, List.take_of_length_le fits, List.takeWhile_append_of_pos areDigits,
        Text.takeWhile_of_endsDigits (ends.take _), List.append_nil]
  rw [digits]
  simp only [taken]
  rw [if_neg (by omega), List.drop_left]

theorem exactly_padded {width n : Nat} (positive : 0 < width) (fits : n < Nat.pow 10 width)
    (rest : List Char) : exactly width (Instant.padded width n ++ rest) = some (n, rest) := by
  have length := Instant.length_padded positive fits
  rw [exactly, bind_of_read (digits_append (fun _ => Instant.isDigit_of_mem_padded)
    (Nat.le_of_eq length.symm) (.inl length)), Instant.ofDigits_padded]
  rfl

theorem literal_cons (c : Char) (rest : List Char) : literal c (c :: rest) = some ((), rest) :=
  if_pos rfl

theorem modify_trimStart {c : Char} (visible : Text.isBlank c = false) (s : List Char) :
    (modify Text.trimStart : Reader Unit) (c :: s) = some ((), c :: s) := by
  change some ((), Text.trimStart (c :: s)) = _
  rw [Text.trimStart_cons visible]

theorem trim_padded {width n : Nat} (positive : 0 < width) (rest : List Char) :
    (modify Text.trimStart : Reader Unit) (Instant.padded width n ++ rest) =
      some ((), Instant.padded width n ++ rest) := by
  obtain ⟨c, digits, begins, digit⟩ := @Instant.exists_padded width n positive
  rw [begins]
  exact modify_trimStart (Text.isBlank_of_isDigit digit) (digits ++ rest)

theorem loose_padded {n : Nat} (fits : n < 100) (rest : List Char) :
    loose (Instant.padded 2 n ++ rest) = some (n, rest) := by
  have length := Instant.length_padded (by decide : 0 < 2) fits
  rw [loose, bind_of_read (trim_padded (by decide) rest),
    bind_of_read (digits_append (fun _ => Instant.isDigit_of_mem_padded)
      (by rw [length]; decide) (.inl length)), Instant.ofDigits_padded]
  rfl

theorem signed_padded (n : Nat) {rest : List Char} (ends : Text.EndsDigits rest) :
    digits 1 (Instant.padded 4 n ++ rest).length (Instant.padded 4 n ++ rest) =
      some (Instant.padded 4 n, rest) := by
  have wide := Instant.width_le_length_padded 4 n
  apply digits_append (fun _ => Instant.isDigit_of_mem_padded) (by omega)
  refine .inr ⟨?_, ends⟩
  rw [List.length_append]
  omega

theorem year_minus (n : Nat) {rest : List Char} (ends : Text.EndsDigits rest) :
    year ('-' :: (Instant.padded 4 n ++ rest)) = some (-(n : Int), rest) := by
  rw [year, bind_of_read (modify_trimStart (by decide) _), bind_of_read (get_eq _)]
  simp only
  rw [bind_of_read (set_eq _ _), bind_of_read (signed_padded n ends), Instant.ofDigits_padded]
  rfl

theorem year_plus (n : Nat) {rest : List Char} (ends : Text.EndsDigits rest) :
    year ('+' :: (Instant.padded 4 n ++ rest)) = some ((n : Int), rest) := by
  rw [year, bind_of_read (modify_trimStart (by decide) _), bind_of_read (get_eq _)]
  simp only
  rw [bind_of_read (set_eq _ _), bind_of_read (signed_padded n ends), Instant.ofDigits_padded]
  rfl

theorem nanoseconds_padded {width n : Nat} (positive : 0 < width) (most : width ≤ 9)
    (fits : n < Nat.pow 10 width) {rest : List Char} (ends : Text.EndsDigits rest) :
    nanoseconds (Instant.padded width n ++ rest) = some (n * Nat.pow 10 (9 - width), rest) := by
  have length := Instant.length_padded positive fits
  rw [nanoseconds, bind_of_read (digits_append (fun _ => Instant.isDigit_of_mem_padded)
    (by omega) (.inr ⟨by omega, ends⟩))]
  change some (_, rest.dropWhile Char.isDigit) = _
  rw [Instant.ofDigits_padded, length, Text.dropWhile_of_endsDigits ends]

theorem fraction_point (s : List Char) : fraction ('.' :: s) = nanoseconds s := rfl

theorem fraction_of_noPoint {s : List Char} (noPoint : '.' ∉ s.head?) :
    fraction s = some (0, s) := by
  unfold fraction
  split
  next rest => exact absurd rfl noPoint
  next => rfl

theorem fraction_writtenFraction {nano : Nat} (fits : nano < 1000000000) {rest : List Char}
    (ends : Text.EndsDigits rest) (noPoint : '.' ∉ rest.head?) :
    fraction (Instant.writtenFraction nano ++ rest) = some (nano, rest) := by
  unfold Instant.writtenFraction
  split
  next zero =>
    rw [zero]
    exact fraction_of_noPoint noPoint
  next =>
    split
    next milli =>
      have read := nanoseconds_padded (by decide : 0 < 3) (by decide)
        (by change nano / 1000000 < 1000; omega) ends
      rw [List.cons_append, fraction_point, read, Nat.div_mul_cancel (Nat.dvd_of_mod_eq_zero milli)]
    next =>
      split
      next micro =>
        have read := nanoseconds_padded (by decide : 0 < 6) (by decide)
          (by change nano / 1000 < 1000000; omega) ends
        rw [List.cons_append, fraction_point, read,
          Nat.div_mul_cancel (Nat.dvd_of_mod_eq_zero micro)]
      next =>
        have read := nanoseconds_padded (by decide : 0 < 9) (by decide) fits ends
        have whole : nano * Nat.pow 10 (9 - 9) = nano := Nat.mul_one nano
        rw [List.cons_append, fraction_point, read, whole]

end Sieve.Time.Reader
