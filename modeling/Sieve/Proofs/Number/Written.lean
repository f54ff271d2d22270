import Sieve.Coercion
import Sieve.Proofs.Number.Decimal
import Sieve.Proofs.Text.Trimming

/-! Written numbers are read back: whole numbers and binary64 numbers from their own texts. -/
namespace Sieve

/-- A visible text that begins with a digit, but does not only have digits. -/
structure IsFractional (s : List Char) : Prop where
  begins : ∃ c rest, s = c :: rest ∧ c.isDigit = true
  marked : ∃ c ∈ s, c.isDigit = false
  visible : ∀ c ∈ s, Text.isBlank c = false

theorem isFractional_append {digits rest : List Char} {mark : Char} (areDigits : IsDigits digits)
    (nonempty : digits ≠ []) (noDigit : mark.isDigit = false)
    (visible : ∀ c ∈ mark :: rest, Text.isBlank c = false) :
    IsFractional (digits ++ mark :: rest) := by
  obtain ⟨first, others, rfl⟩ := List.exists_cons_of_ne_nil nonempty
  refine ⟨⟨first, others ++ mark :: rest, rfl, areDigits first List.mem_cons_self⟩,
    ⟨mark, by simp, noDigit⟩, ?_⟩
  intro c member
  rcases List.mem_append.mp member with left | right
  · exact Text.isBlank_of_isDigit (areDigits c left)
  · exact visible c right

theorem IsDigits.visible {digits : List Char} (areDigits : IsDigits digits) :
    ∀ c ∈ digits, Text.isBlank c = false :=
  fun c member => Text.isBlank_of_isDigit (areDigits c member)

theorem isFractional_positional {digits : List Char} (areDigits : IsDigits digits) (place : Int) :
    IsFractional (positional digits place) := by
  obtain ⟨whole, fraction, _, _, written, nonempty, wholeDigits, fractionDigits, _⟩ :=
    Decimal.exists_positional areDigits place
  rw [written]
  apply isFractional_append wholeDigits nonempty (by decide)
  exact List.forall_mem_cons.mpr ⟨by decide, fractionDigits.visible⟩

theorem isFractional_scientific {digits : List Char} (areDigits : IsDigits digits)
    (nonempty : digits ≠ []) (exponent : Int) : IsFractional (scientific digits exponent) := by
  obtain ⟨first, rest, rfl⟩ := List.exists_cons_of_ne_nil nonempty
  have firstDigit : IsDigits [first] := areDigits.of_sublist (by simp)
  have restDigits : IsDigits rest := areDigits.of_sublist (List.sublist_cons_self first rest)
  have power : ∀ c ∈ 'e' :: (if exponent < 0 then '-' else '+') :: decimalDigits exponent.natAbs,
      Text.isBlank c = false := by
    refine List.forall_mem_cons.mpr ⟨by decide, List.forall_mem_cons.mpr ⟨?_, ?_⟩⟩
    · split <;> decide
    · exact (IsDigits.decimal exponent.natAbs).visible
  unfold scientific
  generalize (if exponent < 0 then '-' else '+') :: decimalDigits exponent.natAbs = tail at power ⊢
  cases rest with
  | nil => exact isFractional_append firstDigit (by simp) (by decide) power
  | cons second rest =>
    have visible : ∀ c ∈ '.' :: (second :: rest ++ 'e' :: tail), Text.isBlank c = false :=
      List.forall_mem_cons.mpr
        ⟨by decide, List.forall_mem_append.mpr ⟨restDigits.visible, power⟩⟩
    have fractional := isFractional_append firstDigit (by simp) (by decide) visible
    simpa using fractional

namespace Binary64

theorem eq_zero {x : Binary64} (zero : x.isZero = true) : x = Binary64.zero x.negative := by
  cases x with
  | mk negative code bound =>
    have none : code = 0 := beq_iff_eq.mp zero
    subst none
    rfl

theorem isFractional_writtenMagnitude (x : Binary64) : IsFractional x.writtenMagnitude := by
  unfold writtenMagnitude
  split
  · exact isFractional_positional (IsDigits.zeros 1) 0
  · dsimp only
    split
    · exact isFractional_positional (IsDigits.decimal _) _
    · exact isFractional_scientific (IsDigits.decimal _) (decimalDigits_ne_nil _) _

/-- The magnitude that is written is read as a decimal that is rounded to the number. -/
theorem exists_readUnsigned?_writtenMagnitude (x : Binary64) :
    ∃ d, Decimal.readUnsigned? x.negative x.writtenMagnitude = some d ∧ d.round = .finite x := by
  unfold writtenMagnitude
  split
  next zero =>
    refine ⟨_, Decimal.readUnsigned?_point (IsDigits.zeros 1) (by simp) (IsDigits.zeros 1), ?_⟩
    rw [eq_zero zero]
    cases x.negative <;> decide +kernel
  next nonzero =>
    have back := readsBack_shortest (by simpa [isZero] using nonzero)
    have digits := IsDigits.decimal x.shortest.1
    have nonempty := decimalDigits_ne_nil x.shortest.1
    dsimp only
    generalize x.shortest.1 = n at back digits nonempty ⊢
    generalize x.shortest.2 = power at back ⊢
    split
    · obtain ⟨d, read, sign, pads⟩ := Decimal.readUnsigned?_positional digits
        (power + ((decimalDigits n).length : Int) - 1 + 1)
      have same : power + ((decimalDigits n).length : Int) - 1 + 1 - (decimalDigits n).length =
          power := by omega
      exact ⟨d, read, Decimal.round_of_readsBack back sign (same ▸ pads)⟩
    · refine ⟨_, Decimal.readUnsigned?_scientific digits nonempty _,
        Decimal.round_of_readsBack back rfl ⟨0, 0, by simp, ?_⟩⟩
      dsimp only
      omega

end Binary64

section
variable {c : Char} {rest : List Char}

theorem readReal?_of_isDigit (digit : c.isDigit = true) :
    readReal? (c :: rest) = readUnsignedReal? false (c :: rest) := by
  unfold readReal?
  split
  next same =>
    cases same
    exact absurd digit (by decide)
  next same =>
    cases same
    exact absurd digit (by decide)
  next => rfl

theorem readInt64?_of_isDigit (digit : c.isDigit = true) :
    readInt64? (c :: rest) =
      ((readDigits? (c :: rest)).map fun (n : Nat) => (n : Int)).filter fitsInt64 := by
  unfold readInt64?
  split
  next same =>
    cases same
    exact absurd digit (by decide)
  next same =>
    cases same
    exact absurd digit (by decide)
  next => cases readDigits? (c :: rest) <;> rfl

end

section
variable (x : Binary64)

theorem readReal?_written : readReal? x.written = some (.finite x) := by
  obtain ⟨d, read, rounded⟩ := x.exists_readUnsigned?_writtenMagnitude
  have unsigned : readUnsignedReal? x.negative x.writtenMagnitude = some (.finite x) := by
    rw [readUnsignedReal?, read, ← rounded]
  unfold Binary64.written
  cases sign : x.negative with
  | true =>
    rw [sign] at unsigned
    exact unsigned
  | false =>
    obtain ⟨c, rest, same, digit⟩ := x.isFractional_writtenMagnitude.begins
    rw [sign, same] at unsigned
    rw [if_neg Bool.false_ne_true, same, readReal?_of_isDigit digit]
    exact unsigned

/-- A binary64 number is never written as a whole number. -/
theorem readInt64?_written : readInt64? x.written = none := by
  obtain ⟨mark, member, noDigit⟩ := x.isFractional_writtenMagnitude.marked
  have refused := readDigits?_eq_none member noDigit
  unfold Binary64.written
  cases x.negative with
  | true =>
    rw [if_pos rfl, readInt64?, refused]
    rfl
  | false =>
    obtain ⟨c, rest, same, digit⟩ := x.isFractional_writtenMagnitude.begins
    rw [same] at refused
    rw [if_neg Bool.false_ne_true, same, readInt64?_of_isDigit digit, refused]
    rfl

theorem visible_written : ∀ c ∈ x.written, Text.isBlank c = false := by
  unfold Binary64.written
  split
  · exact List.forall_mem_cons.mpr ⟨by decide, x.isFractional_writtenMagnitude.visible⟩
  · exact x.isFractional_writtenMagnitude.visible

end

section
variable (i : Int)

theorem exists_decimalDigits (n : Nat) :
    ∃ c rest, decimalDigits n = c :: rest ∧ c.isDigit = true := by
  obtain ⟨c, rest, same⟩ := List.exists_cons_of_ne_nil (decimalDigits_ne_nil n)
  exact ⟨c, rest, same, IsDigits.decimal n c (same ▸ List.mem_cons_self)⟩

theorem readInt64?_decimalOfInt :
    readInt64? (decimalOfInt i) = if fitsInt64 i then some i else none := by
  have digits := (IsDigits.decimal i.natAbs).readDigits?_eq (decimalDigits_ne_nil _)
  rw [ofDigits_decimalDigits] at digits
  unfold decimalOfInt
  split
  next negative =>
    have value : -(i.natAbs : Int) = i := by omega
    rw [readInt64?, digits]
    change (some (-(i.natAbs : Int))).filter fitsInt64 = _
    rw [value, Option.filter_some]
  next positive =>
    have value : (i.natAbs : Int) = i := by omega
    obtain ⟨c, rest, same, digit⟩ := exists_decimalDigits i.natAbs
    rw [same] at digits
    rw [same, readInt64?_of_isDigit digit, digits, Option.map_some, value, Option.filter_some]

theorem readReal?_decimalOfInt :
    readReal? (decimalOfInt i) = some (Json.Number.whole i).toReal := by
  have unsigned (negative : Bool) : readUnsignedReal? negative (decimalDigits i.natAbs) =
      some (.ofOption negative (Binary64.ofRatio? negative i.natAbs 1)) := by
    rw [readUnsignedReal?,
      Decimal.readUnsigned?_digits (IsDigits.decimal _) (decimalDigits_ne_nil _),
      ← Decimal.round_whole]
  unfold decimalOfInt Json.Number.toReal Binary64.ofInt?
  dsimp only
  split
  next negative =>
    rw [decide_eq_true negative]
    exact unsigned true
  next positive =>
    obtain ⟨c, rest, same, digit⟩ := exists_decimalDigits i.natAbs
    rw [decide_eq_false positive, ← unsigned false, same]
    exact readReal?_of_isDigit digit

theorem visible_decimalOfInt : ∀ c ∈ decimalOfInt i, Text.isBlank c = false := by
  unfold decimalOfInt
  split
  · exact List.forall_mem_cons.mpr ⟨by decide, (IsDigits.decimal _).visible⟩
  · exact (IsDigits.decimal _).visible

end

theorem Coercion.numberOfText?_text (n : Json.Number) :
    numberOfText? n.text = numberOfJson? n := by
  have visible : Text.trim n.written = n.written := by
    apply Text.trim_of_visible
    cases n with
    | whole i => exact visible_decimalOfInt i
    | real x => exact visible_written x
  rw [numberOfText?, Json.Number.text, String.toList_ofList, visible]
  cases n with
  | whole i =>
    have whole : (Json.Number.whole i).int64? = if fitsInt64 i then some i else none := rfl
    rw [numberOfJson?, whole, Json.Number.written, readInt64?_decimalOfInt, readReal?_decimalOfInt,
      Option.bind_some]
  | real x =>
    have real : (Json.Number.real x).int64? = none := rfl
    rw [numberOfJson?, real, Json.Number.written, readInt64?_written, readReal?_written,
      Option.bind_some]
    rfl

end Sieve
