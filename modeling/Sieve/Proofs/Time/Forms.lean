import Sieve.Proofs.Time.Reader
import Sieve.Proofs.Time.Spelling

/-! What the forms of a date and time make of its spellings. The strict form asks for seconds and an
offset with a colon; the loose ones take what it refuses, in whichever of them has its parts. -/
namespace Sieve.Time

open Instant

/-- A text that can follow a spelling: it is empty or begins as an offset does. -/
def Follows (rest : List Char) : Prop :=
  ∀ c ∈ rest.head?, c ∈ ['Z', 'z', '+', '-']

namespace Follows

variable {rest : List Char}

theorem nil : Follows [] := nofun

theorem ne_head {c : Char} (follows : Follows rest) (other : c ∉ ['Z', 'z', '+', '-']) :
    c ∉ rest.head? :=
  fun head => other (follows c head)

theorem endsDigits (follows : Follows rest) : Text.EndsDigits rest := by
  have none : ∀ c ∈ ['Z', 'z', '+', '-'], c.isDigit = false := by simp
  exact fun c head => none c (follows c head)

theorem zone (z : Zone) : Follows z.chars := by
  cases z with
  | missing => exact .nil
  | letter upper => cases upper <;> simp [Zone.chars, Follows]
  | offset o colon =>
    rw [Zone.chars, Offset.chars]
    cases o.behind <;> simp [Follows]

end Follows

namespace Reader

theorem year_of_digit {c : Char} (digit : c.isDigit = true) (rest : List Char) : year (c :: rest) =
    (do return (Text.ofDigits (← digits 1 4) : Int) : Reader Int) (c :: rest) := by
  rw [year, bind_of_read (modify_trimStart (Text.isBlank_of_isDigit digit) rest),
    bind_of_read (get_eq _)]
  refine congrFun ?_ (c :: rest)
  split
  next minus =>
    cases minus
    cases digit
  next plus =>
    cases plus
    cases digit
  next => rfl

theorem year_padded {n : Nat} (fits : n < 10000) (rest : List Char) :
    year (padded 4 n ++ rest) = some ((n : Int), rest) := by
  have length : (padded 4 n).length = 4 := length_padded (by decide) fits
  have read : digits 1 4 (padded 4 n ++ rest) = some (padded 4 n, rest) :=
    digits_append (fun _ => isDigit_of_mem_padded) (by omega) (.inl length)
  obtain ⟨c, others, begins, digit⟩ := @exists_padded 4 n (by decide)
  rw [begins, List.cons_append, year_of_digit digit, ← List.cons_append, ← begins,
    bind_of_read read, ofDigits_padded]
  rfl

theorem fraction_chars (s : Seconds) {rest : List Char} (ends : Text.EndsDigits rest)
    (noPoint : '.' ∉ rest.head?) : fraction (s.fractionChars ++ rest) = some (s.nano, rest) := by
  rw [Seconds.fractionChars]
  split
  next none =>
    have zero : s.nano = 0 := by
      rw [Seconds.nano, none]
      rfl
    rw [zero]
    exact fraction_of_noPoint noPoint
  next some =>
    have positive : 0 < s.fraction.length := List.length_pos_iff.mpr some
    have first : IsDigits (s.fraction.take 9) := s.digits.of_sublist (List.take_sublist 9 _)
    have others : IsDigits (s.fraction.drop 9) := s.digits.of_sublist (List.drop_sublist 9 _)
    have enough : 1 ≤ (s.fraction.take 9).length := by
      rw [List.length_take]
      omega
    have read : digits 1 9 (s.fraction.take 9 ++ (s.fraction.drop 9 ++ rest)) =
        .some (s.fraction.take 9, s.fraction.drop 9 ++ rest) := by
      apply digits_append first enough
      rcases Nat.lt_or_ge s.fraction.length 9 with short | long
      · rw [List.drop_of_length_le (Nat.le_of_lt short), List.nil_append]
        exact .inr ⟨List.length_take_le 9 _, ends⟩
      · exact .inl (List.length_take_of_le long)
    rw [← List.append_assoc, List.take_append_drop] at read
    rw [List.cons_append, fraction_point, nanoseconds, bind_of_read read]
    change Option.some (_, (s.fraction.drop 9 ++ rest).dropWhile Char.isDigit) = _
    rw [others.dropWhile_append ends]
    rfl

theorem offset_eq (o : Offset) (between : Reader Unit) (colon : Bool) :
    offset between (o.chars colon) = (do
      between
      let minutes ← exactly 2
      if minutes ≤ 59 then return o.sign * (o.hours * 3600 + minutes * 60 : Nat)
      else failure : Reader Int) (Offset.separator colon ++ padded 2 o.minutes) := by
  have hours (rest : List Char) : exactly 2 (padded 2 o.hours ++ rest) = some (o.hours.val, rest) :=
    exactly_padded (by decide) (o.hours.isLt.trans (by decide)) rest
  have sign {read : Reader Int} (positive : ∀ s, read ('+' :: s) = some (1, s))
      (negative : ∀ s, read ('-' :: s) = some (-1, s)) : read (o.chars colon) =
        some (o.sign, padded 2 o.hours ++ (Offset.separator colon ++ padded 2 o.minutes)) := by
    rw [Offset.chars, Offset.sign]
    cases o.behind with
    | false => exact positive _
    | true => exact negative _
  refine (bind_of_read (sign (fun _ => rfl) fun _ => rfl)).trans ?_
  rw [bind_of_read (hours _)]

theorem offset_of_passed (o : Offset) {between : Reader Unit} {colon : Bool}
    (passes : between (Offset.separator colon ++ padded 2 o.minutes) =
      some ((), padded 2 o.minutes)) : offset between (o.chars colon) = some (o.ahead, []) := by
  have minutes : exactly 2 (padded 2 o.minutes) = some (o.minutes.val, []) := by
    rw [← List.append_nil (padded 2 _)]
    exact exactly_padded (by decide) (o.minutes.isLt.trans (by decide)) []
  have bound : o.minutes.val ≤ 59 := Nat.le_of_lt_succ o.minutes.isLt
  rw [offset_eq, bind_of_read passes, bind_of_read minutes, if_pos bound]
  rfl

theorem literal_of_head {c : Char} {s : List Char} (other : c ∉ s.head?) : literal c s = none := by
  cases s with
  | nil => rfl
  | cons first s =>
    refine if_neg ?_
    rintro rfl
    exact other rfl

theorem head?_padded {n : Nat} {c : Char} (noDigit : c.isDigit = false) :
    c ∉ (padded 2 n).head? := by
  obtain ⟨first, digits, begins, digit⟩ := @exists_padded 2 n (by decide)
  rw [begins]
  rintro ⟨⟩
  rw [noDigit] at digit
  cases digit

theorem strictOffset_zone (z : Zone) :
    strictOffset z.chars = none ∨ strictOffset z.chars = some (z.ahead, []) := by
  cases z with
  | missing => exact .inl rfl
  | letter upper => cases upper <;> exact .inr rfl
  | offset o colon =>
    have noLetter : strictOffset (o.chars colon) = offset (literal ':') (o.chars colon) := by
      rw [Offset.chars]
      cases o.behind <;> rfl
    rw [Zone.chars, noLetter]
    cases colon with
    | true => exact .inr (offset_of_passed o (literal_cons ':' _))
    | false =>
      have noColon : literal ':' (padded 2 o.minutes) = none :=
        literal_of_head (head?_padded (by decide))
      exact .inl ((offset_eq o _ false).trans (bind_of_none noColon))

theorem looseOffset_chars (o : Offset) (colon : Bool) :
    looseOffset (o.chars colon) = some (o.ahead, []) := by
  have visible :
      (modify Text.trimStart : Reader Unit) (o.chars colon) = some ((), o.chars colon) := by
    rw [Offset.chars]
    cases o.behind <;> exact modify_trimStart (by decide) _
  have dropped : (Offset.separator colon ++ padded 2 o.minutes).dropWhile
      (fun c => c == ':' || Text.isBlank c) = padded 2 o.minutes := by
    obtain ⟨c, digits, begins, digit⟩ := @exists_padded 2 o.minutes (by decide)
    have kept : ¬(c == ':' || Text.isBlank c) = true := by
      rw [Text.isBlank_of_isDigit digit, Bool.or_false, beq_iff_eq]
      rintro rfl
      cases digit
    have minutes : (c :: digits).dropWhile (fun c => c == ':' || Text.isBlank c) = c :: digits :=
      List.dropWhile_cons_of_neg kept
    rw [begins]
    cases colon <;> exact minutes
  rw [looseOffset, bind_of_read visible]
  apply offset_of_passed
  change some ((), List.dropWhile _ _) = _
  rw [dropped]

def strictDate : Reader Date := do
  let year ← exactly 4
  literal '-'
  let month ← exactly 2
  literal '-'
  return ⟨year, month, ← exactly 2⟩

def strictTime (date : Date) : Reader Reading := do
  (fun s =>
    match s with
    | 'T' :: rest | 't' :: rest | ' ' :: rest => some ((), rest)
    | _ => none)
  let hour ← exactly 2
  literal ':'
  let minute ← exactly 2
  literal ':'
  let second ← exactly 2
  let nano ← fraction
  return ⟨date, hour, minute, second, nano, ← strictOffset⟩

def looseTime (seconds : Reader (Nat × Nat)) (ahead : Reader Int) (date : Date) :
    Reader Reading := do
  literal 'T'
  let hour ← loose
  literal ':'
  let minute ← loose
  let (second, nano) ← seconds
  return ⟨date, hour, minute, second, nano, ← ahead⟩

theorem strict_eq : strict = strictDate >>= strictTime := by
  simp only [strictDate, bind_assoc, pure_bind]
  rfl

theorem dateTime_eq (seconds : Reader (Nat × Nat)) (ahead : Reader Int) :
    dateTime seconds ahead = date >>= looseTime seconds ahead := rfl

theorem strictDate_chars (d : Spelling) (rest : List Char) :
    strictDate (d.dateChars ++ rest) = some (d.date, rest) := by
  obtain ⟨year, month, day⟩ := d.date_fits
  simp only [Spelling.dateChars, List.append_assoc, List.cons_append]
  rw [strictDate, bind_of_read (exactly_padded (by decide) year _), bind_of_read (literal_cons _ _),
    bind_of_read (exactly_padded (by decide) month _), bind_of_read (literal_cons _ _),
    bind_of_read (exactly_padded (by decide) day _), d.toNat_year]
  rfl

theorem date_chars (d : Spelling) (rest : List Char) :
    date (d.dateChars ++ rest) = some (d.date, rest) := by
  obtain ⟨year, month, day⟩ := d.date_fits
  simp only [Spelling.dateChars, List.append_assoc, List.cons_append]
  rw [date, bind_of_read (year_padded year _), bind_of_read (literal_cons _ _),
    bind_of_read (loose_padded month _), bind_of_read (literal_cons _ _),
    bind_of_read (loose_padded day _), d.toNat_year]
  rfl

variable {d : Spelling} {s : Seconds} {rest : List Char}

theorem strictTime_chars (d : Spelling) (rest : List Char) :
    strictTime d.date (d.timeChars ++ rest) = (do
      literal ':'
      let second ← exactly 2
      let nano ← fraction
      return ⟨d.date, d.hour, d.minute, second, nano, ← strictOffset⟩ : Reader Reading)
        (d.secondsChars ++ rest) := by
  have hour := Nat.lt_trans d.hour.isLt (by decide : 24 < Nat.pow 10 2)
  have minute := Nat.lt_trans d.minute.isLt (by decide : 60 < Nat.pow 10 2)
  simp only [Spelling.timeChars, List.append_assoc, List.cons_append]
  -- The letter between date and time.
  refine (bind_of_read rfl).trans ?_
  rw [bind_of_read (exactly_padded (by decide) hour _), bind_of_read (literal_cons _ _),
    bind_of_read (exactly_padded (by decide) minute _)]

theorem looseTime_chars (seconds : Reader (Nat × Nat)) (ahead : Reader Int) (d : Spelling)
    (rest : List Char) : looseTime seconds ahead d.date (d.timeChars ++ rest) = (do
      let (second, nano) ← seconds
      return ⟨d.date, d.hour, d.minute, second, nano, ← ahead⟩ : Reader Reading)
        (d.secondsChars ++ rest) := by
  have hour := Nat.lt_trans d.hour.isLt (by decide : 24 < 100)
  have minute := Nat.lt_trans d.minute.isLt (by decide : 60 < 100)
  simp only [Spelling.timeChars, List.append_assoc, List.cons_append]
  rw [looseTime, bind_of_read (literal_cons _ _), bind_of_read (loose_padded hour _),
    bind_of_read (literal_cons _ _), bind_of_read (loose_padded minute _)]

theorem strict_chars (d : Spelling) (rest : List Char) :
    strict (d.chars ++ rest) = strictTime d.date (d.timeChars ++ rest) := by
  rw [strict_eq, Spelling.chars, List.append_assoc, bind_of_read (strictDate_chars d _)]

theorem dateTime_chars (seconds : Reader (Nat × Nat)) (ahead : Reader Int) (d : Spelling)
    (rest : List Char) : dateTime seconds ahead (d.chars ++ rest) =
      looseTime seconds ahead d.date (d.timeChars ++ rest) := by
  rw [dateTime_eq, Spelling.chars, List.append_assoc, bind_of_read (date_chars d _)]

theorem strict_seconds (given : d.seconds = some s) (follows : Follows rest) :
    strict (d.chars ++ rest) = (do return d.reading (← strictOffset) : Reader Reading) rest := by
  have second := Nat.lt_trans s.second.isLt (by decide : 61 < Nat.pow 10 2)
  rw [strict_chars, strictTime_chars, Spelling.secondsChars, given]
  simp only [Option.map_some, Option.getD_some, Seconds.chars, List.cons_append, List.append_assoc]
  rw [bind_of_read (literal_cons _ _), bind_of_read (exactly_padded (by decide) second _),
    bind_of_read (fraction_chars s follows.endsDigits (follows.ne_head (by decide)))]
  simp only [Spelling.reading, given, Option.map_some, Option.getD_some]

theorem strict_minutes (missing : d.seconds = none) (follows : Follows rest) :
    strict (d.chars ++ rest) = none := by
  have noColon : literal ':' rest = none := literal_of_head (follows.ne_head (by decide))
  rw [strict_chars, strictTime_chars, Spelling.secondsChars, missing]
  exact bind_of_none noColon

theorem dateTime_seconds (given : d.seconds = some s) (follows : Follows rest)
    (ahead : Reader Int) : dateTime seconds ahead (d.chars ++ rest) =
      (do return d.reading (← ahead) : Reader Reading) rest := by
  have second := Nat.lt_trans s.second.isLt (by decide : 61 < 100)
  have read : seconds (s.chars ++ rest) = some ((s.second.val, s.nano), rest) := by
    simp only [Seconds.chars, List.cons_append, List.append_assoc]
    rw [seconds, bind_of_read (literal_cons _ _), bind_of_read (loose_padded second _),
      bind_of_read (fraction_chars s follows.endsDigits (follows.ne_head (by decide)))]
    rfl
  rw [dateTime_chars, looseTime_chars, Spelling.secondsChars, given]
  simp only [Option.map_some, Option.getD_some]
  rw [bind_of_read read]
  simp only [Spelling.reading, given, Option.map_some, Option.getD_some]

theorem dateTime_minutes (missing : d.seconds = none) (ahead : Reader Int) (rest : List Char) :
    dateTime (pure (0, 0)) ahead (d.chars ++ rest) =
      (do return d.reading (← ahead) : Reader Reading) rest := by
  rw [dateTime_chars, looseTime_chars, Spelling.secondsChars, missing]
  simp only [Spelling.reading, missing]
  rfl

/-- Without seconds the form that asks for them is of no use. -/
theorem dateTime_seconds_of_missing (missing : d.seconds = none) (follows : Follows rest)
    (ahead : Reader Int) : dateTime seconds ahead (d.chars ++ rest) = none := by
  have noColon : literal ':' rest = none := literal_of_head (follows.ne_head (by decide))
  rw [dateTime_chars, looseTime_chars, Spelling.secondsChars, missing]
  exact bind_of_none (bind_of_none noColon)

/-- One of the two forms takes a spelling, whatever offset it is that they have in common. -/
theorem whole_dateTime {ahead : Reader Int} {a : Int} {t : Instant} (follows : Follows rest)
    (read : ahead rest = some (a, [])) (named : (d.reading a).toInstant? = some t) :
    (whole (dateTime seconds ahead) (d.chars ++ rest)).or
      (whole (dateTime (pure (0, 0)) ahead) (d.chars ++ rest)) = some t := by
  have taken : (do return d.reading (← ahead) : Reader Reading) rest = some (d.reading a, []) :=
    bind_of_read read
  cases given : d.seconds with
  | some s =>
    rw [whole_of_read ((dateTime_seconds given follows ahead).trans taken), named]
    rfl
  | none =>
    have refused : whole (dateTime seconds ahead) (d.chars ++ rest) = none := by
      rw [whole, dateTime_seconds_of_missing given follows]
    rw [refused, whole_of_read ((dateTime_minutes given ahead rest).trans taken), named]
    rfl

theorem whole_strict {a : Int} {t : Instant} (follows : Follows rest)
    (read : strictOffset rest = none ∨ strictOffset rest = some (a, []))
    (named : (d.reading a).toInstant? = some t) :
    whole strict (d.chars ++ rest) = none ∨ whole strict (d.chars ++ rest) = some t := by
  cases given : d.seconds with
  | none =>
    left
    rw [whole, strict_minutes given follows]
  | some s =>
    have taken := strict_seconds given follows
    rcases read with refused | read
    · left
      rw [whole, taken, bind_of_none refused]
    · right
      rw [whole_of_read (taken.trans (bind_of_read read)), named]

theorem plain_chars {t : Instant} (named : (d.reading 0).toInstant? = some t) :
    plain d.chars = some t := by
  have both := @whole_dateTime d [] (pure 0) 0 t .nil rfl named
  rwa [List.append_nil] at both

theorem withOffset_chars {o : Offset} {colon : Bool} {t : Instant}
    (named : (d.reading o.ahead).toInstant? = some t) :
    withOffset (d.chars ++ o.chars colon) = some t :=
  whole_dateTime (Follows.zone (.offset o colon)) (looseOffset_chars o colon) named

theorem withOffset_of_missing (d : Spelling) : withOffset d.chars = none := by
  have ends : (do return d.reading (← looseOffset) : Reader Reading) [] = none := rfl
  rw [← List.append_nil d.chars, withOffset]
  cases given : d.seconds with
  | none =>
    rw [whole, dateTime_seconds_of_missing given .nil, whole, dateTime_minutes given, ends]
    rfl
  | some s =>
    -- The seconds stand where the other form looks for the offset.
    have other : dateTime (pure (0, 0)) looseOffset (d.chars ++ []) = none := by
      rw [dateTime_chars, looseTime_chars, Spelling.secondsChars, given]
      rfl
    rw [whole, dateTime_seconds given .nil, ends, whole, other]
    rfl

theorem refuse_date (d : Spelling) : strict d.dateChars = none ∧
    ∀ seconds ahead, dateTime seconds ahead d.dateChars = none := by
  rw [← List.append_nil d.dateChars]
  constructor
  · rw [strict_eq, bind_of_read (strictDate_chars d [])]
    rfl
  · intro seconds ahead
    rw [dateTime_eq, bind_of_read (date_chars d [])]
    rfl

theorem bareDate_chars (d : Spelling) :
    bareDate d.dateChars = Reading.toInstant? ⟨d.date, 0, 0, 0, 0, 0⟩ := by
  have read : (do return ⟨← date, 0, 0, 0, 0, 0⟩ : Reader Reading) d.dateChars =
      some (⟨d.date, 0, 0, 0, 0, 0⟩, []) := by
    rw [← List.append_nil d.dateChars, bind_of_read (date_chars d [])]
    rfl
  rw [bareDate, whole_of_read read]

end Reader

end Sieve.Time
