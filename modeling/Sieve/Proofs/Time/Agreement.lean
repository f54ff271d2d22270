import Sieve.Proofs.Text.Trimming
import Sieve.Proofs.Time.Forms

/-! The spellings of one instant agree. The forms are tried in turn, and whichever it is that takes
a spelling, it takes it for the instant that is meant. -/
namespace Sieve.Time

open Instant

def OfClock (c : Char) : Prop :=
  c.isDigit = true ∨ c ∈ ['-', 'T', ':', '.', '+']

instance (c : Char) : Decidable (OfClock c) :=
  inferInstanceAs (Decidable (_ ∨ _))

namespace OfClock

theorem visible {c : Char} (ofClock : OfClock c) : Text.isBlank c = false := by
  rcases ofClock with digit | mark
  · exact Text.isBlank_of_isDigit digit
  · have marks : ∀ c ∈ ['-', 'T', ':', '.', '+'], (!Text.isBlank c) = true :=
      List.all_eq_true.mp (by decide)
    simpa using marks c mark

theorem padded {width n : Nat} : ∀ c ∈ Instant.padded width n, OfClock c :=
  fun _ member => .inl (isDigit_of_mem_padded member)

theorem dateChars (d : Spelling) : ∀ c ∈ d.dateChars, OfClock c := by
  have hyphen : OfClock '-' := by decide
  simp only [Spelling.dateChars, List.forall_mem_append, List.forall_mem_cons]
  exact ⟨padded, hyphen, padded, hyphen, padded⟩

theorem fractionChars (s : Seconds) : ∀ c ∈ s.fractionChars, OfClock c := by
  rw [Seconds.fractionChars]
  split
  next => simp
  next => exact List.forall_mem_cons.mpr ⟨by decide, fun c member => .inl (s.digits c member)⟩

theorem secondsChars (d : Spelling) : ∀ c ∈ d.secondsChars, OfClock c := by
  rw [Spelling.secondsChars]
  cases d.seconds with
  | none => simp
  | some s =>
    simp only [Option.map_some, Option.getD_some, Seconds.chars, List.forall_mem_append,
      List.forall_mem_cons]
    exact ⟨by decide, padded, fractionChars s⟩

theorem chars (d : Spelling) : ∀ c ∈ d.chars, OfClock c := by
  simp only [Spelling.chars, Spelling.timeChars, List.forall_mem_append, List.forall_mem_cons]
  exact ⟨dateChars d, by decide, padded, by decide, padded, secondsChars d⟩

theorem offset (o : Offset) (colon : Bool) : ∀ c ∈ o.chars colon, OfClock c := by
  have between : ∀ c ∈ Offset.separator colon, OfClock c := by
    cases colon with
    | true => exact List.forall_mem_singleton.mpr (by decide)
    | false => nofun
  simp only [Offset.chars, List.forall_mem_append, List.forall_mem_cons]
  refine ⟨?_, padded, between, padded⟩
  cases o.behind <;> decide

theorem visible_zone (z : Zone) : ∀ c ∈ z.chars, Text.isBlank c = false := by
  cases z with
  | missing => nofun
  | letter upper =>
    rw [Zone.chars, List.forall_mem_singleton]
    cases upper <;> decide
  | offset o colon => exact fun c member => (offset o colon c member).visible

theorem beforeZ?_eq {s : List Char} (ofClock : ∀ c ∈ s, OfClock c) : Reader.beforeZ? s = none := by
  have noLetter {c : Char} {rest : List Char} (ends : s.reverse = c :: rest)
      (letter : ¬OfClock c) : False := by
    have member : c ∈ s.reverse := by rw [ends]; exact List.mem_cons_self
    exact letter (ofClock c (List.mem_reverse.mp member))
  rw [Reader.beforeZ?]
  split
  next ends => exact (noLetter ends (by decide)).elim
  next ends => exact (noLetter ends (by decide)).elim
  next => rfl

end OfClock

namespace Instant

variable {d : Spelling}

/-- Whatever follows a spelling, it is read as the instant that is meant. -/
theorem ofChars?_spelling {z : Zone} {t : Instant}
    (named : (d.reading z.ahead).toInstant? = some t) : ofChars? (d.chars ++ z.chars) = some t := by
  have trimmed : Text.trim (d.chars ++ z.chars) = d.chars ++ z.chars := by
    apply Text.trim_of_visible
    rw [List.forall_mem_append]
    exact ⟨fun c member => (OfClock.chars d c member).visible, OfClock.visible_zone z⟩
  rw [ofChars?, trimmed]
  have strictly := Reader.whole_strict (Follows.zone z) (Reader.strictOffset_zone z) named
  -- What the strict form refuses, for want of seconds or of a colon, is left to a loose one.
  rcases strictly with refused | taken
  · simp only [refused]
    cases z with
    | missing =>
      have noLetter := OfClock.beforeZ?_eq (OfClock.chars d)
      have loosely := Reader.plain_chars named
      simp only [Zone.chars, List.append_nil, noLetter, Reader.withOffset_of_missing, loosely]
      rfl
    | letter upper =>
      have letter : Reader.beforeZ? (d.chars ++ Zone.chars (.letter upper)) = some d.chars := by
        rw [Reader.beforeZ?, List.reverse_append]
        cases upper <;> exact congrArg some (List.reverse_reverse d.chars)
      simp only [letter]
      exact Reader.plain_chars named
    | offset o colon =>
      have noLetter : Reader.beforeZ? (d.chars ++ Zone.chars (.offset o colon)) = none := by
        apply OfClock.beforeZ?_eq
        rw [List.forall_mem_append]
        exact ⟨OfClock.chars d, OfClock.offset o colon⟩
      have loosely : Reader.withOffset (d.chars ++ Zone.chars (.offset o colon)) = some t :=
        Reader.withOffset_chars named
      simp only [noLetter, loosely]
      rfl
  · simp only [taken]

theorem ofChars?_dateChars (d : Spelling) :
    ofChars? d.dateChars = Reading.toInstant? ⟨d.date, 0, 0, 0, 0, 0⟩ := by
  have trimmed : Text.trim d.dateChars = d.dateChars :=
    Text.trim_of_visible fun c member => (OfClock.dateChars d c member).visible
  obtain ⟨strictly, loosely⟩ := Reader.refuse_date d
  have noLetter := OfClock.beforeZ?_eq (OfClock.dateChars d)
  have noOffset : Reader.withOffset d.dateChars = none := by
    rw [Reader.withOffset, Reader.whole, loosely, Reader.whole, loosely]
    rfl
  have noTime : Reader.plain d.dateChars = none := by
    rw [Reader.plain, Reader.whole, loosely, Reader.whole, loosely]
    rfl
  have noStrict : Reader.whole Reader.strict d.dateChars = none := by
    rw [Reader.whole, strictly]
  simp only [ofChars?, trimmed, noStrict, noLetter, noOffset, noTime, Reader.bareDate_chars]
  rfl

theorem parse?_spelling {z : Zone} {t : Instant} (named : (d.reading z.ahead).toInstant? = some t) :
    parse? (d.text ++ z.text) = some t := by
  rw [parse?, Spelling.text, Zone.text, String.toList_append, String.toList_ofList,
    String.toList_ofList]
  exact ofChars?_spelling named

theorem parse?_of_reading_eq {e : Spelling} (same : ∀ ahead, e.reading ahead = d.reading ahead)
    (z : Zone) : parse? (e.text ++ z.text) = parse? (d.text ++ z.text) := by
  obtain ⟨t, named, _⟩ := d.exists_toInstant? z.isOffset
  rw [parse?_spelling named, parse?_spelling (d := e) ((same z.ahead).symm ▸ named)]

theorem parse?_minutes (missing : d.seconds = none) (z : Zone) :
    parse? (d.text ++ ":00" ++ z.text) = parse? (d.text ++ z.text) := by
  let e : Spelling := { d with seconds := some ⟨0, [], nofun⟩ }
  have text : e.text = d.text ++ ":00" := by
    have chars : e.chars = d.chars ++ ":00".toList := by
      have zero : Seconds.chars ⟨0, [], nofun⟩ = ":00".toList := by decide
      simp [Spelling.chars, Spelling.dateChars, Spelling.timeChars, Spelling.secondsChars, missing,
        e, zero]
    rw [Spelling.text, chars, String.ofList_append, String.ofList_toList, Spelling.text]
  have same (ahead : Int) : e.reading ahead = d.reading ahead := by
    simp only [Spelling.reading, missing]
    rfl
  rw [← text]
  exact parse?_of_reading_eq same z

theorem parse?_more_digits {s : Seconds} {more : String} (given : d.seconds = some s)
    (nine : 9 ≤ s.fraction.length) (digits : IsDigits more.toList) (z : Zone) :
    parse? (d.text ++ more ++ z.text) = parse? (d.text ++ z.text) := by
  let longer : Seconds := ⟨s.second, s.fraction ++ more.toList, s.digits.append digits⟩
  let e : Spelling := { d with seconds := some longer }
  have text : e.text = d.text ++ more := by
    have some : s.fraction ≠ [] := List.ne_nil_of_length_pos (by omega)
    have seconds : longer.chars = s.chars ++ more.toList := by
      simp [Seconds.chars, Seconds.fractionChars, longer, some]
    have chars : e.chars = d.chars ++ more.toList := by
      simp [Spelling.chars, Spelling.dateChars, Spelling.timeChars, Spelling.secondsChars, given, e,
        seconds]
    rw [Spelling.text, chars, String.ofList_append, String.ofList_toList, Spelling.text]
  have same (ahead : Int) : e.reading ahead = d.reading ahead := by
    have nano : longer.nano = s.nano := by
      simp only [Seconds.nano, longer, List.take_append_of_le_length nine]
    simp only [Spelling.reading, given, e, Option.map_some, nano]
    rfl
  rw [← text]
  exact parse?_of_reading_eq same z

theorem parse?_date (d : Spelling) : ∃ midnight, parse? d.dateText = some midnight ∧
    parse? (d.dateText ++ "T00:00") = some midnight := by
  let e : Spelling := { d with hour := 0, minute := 0, seconds := none }
  have text : e.text = d.dateText ++ "T00:00" := by
    have chars : e.chars = d.dateChars ++ "T00:00".toList := by
      have zero : padded 2 0 = ['0', '0'] := by decide
      simp [Spelling.chars, Spelling.dateChars, Spelling.timeChars, Spelling.secondsChars, e, zero]
    rw [Spelling.text, chars, String.ofList_append, String.ofList_toList, Spelling.dateText]
  obtain ⟨t, named, _⟩ := e.exists_toInstant? isOffset_zero
  refine ⟨t, ?_, ?_⟩
  · rw [parse?, Spelling.dateText, String.toList_ofList, ofChars?_dateChars]
    exact named
  · have read := parse?_spelling (z := .missing) named
    rwa [Zone.append_missing, text] at read

theorem parse?_surrounded {before after : String}
    (blankBefore : ∀ c ∈ before.toList, Text.isBlank c = true)
    (blankAfter : ∀ c ∈ after.toList, Text.isBlank c = true) (text : String) :
    parse? (before ++ text ++ after) = parse? text := by
  simp only [parse?, ofChars?, String.toList_append, Text.trim_surrounded blankBefore blankAfter]

/-- The spellings of one instant are read as that instant. An offset of zero may be left out, and so
may seconds that are zero or a time of day that is midnight; every offset has two spellings and takes
off what it says. Digits after the ninth of a fraction and white space around make no difference. -/
theorem spellings_agree (d : Spelling) :
    ∃ t : Instant, (d.reading 0).toInstant? = some t ∧
      (∀ zone ∈ ["", "Z", "z", "+00:00", "+0000"], parse? (d.text ++ zone) = some t) ∧
      (∀ o : Offset, ∃ u : Instant, u.second = t.second - o.ahead ∧ u.nano = t.nano ∧
        ∀ colon, parse? (d.text ++ o.text colon) = some u) ∧
      (d.seconds = none → parse? (d.text ++ ":00") = some t) ∧
      (∃ midnight, parse? d.dateText = some midnight ∧
        parse? (d.dateText ++ "T00:00") = some midnight) ∧
      (∀ s more, d.seconds = some s → 9 ≤ s.fraction.length → IsDigits more.toList →
        ∀ z : Zone, parse? (d.text ++ more ++ z.text) = parse? (d.text ++ z.text)) ∧
      ∀ before after : String, (∀ c ∈ before.toList, Text.isBlank c = true) →
        (∀ c ∈ after.toList, Text.isBlank c = true) →
          ∀ text, parse? (before ++ text ++ after) = parse? text := by
  obtain ⟨t, named, second, nano⟩ := d.exists_toInstant? isOffset_zero
  have universal (z : Zone) (none : z.ahead = 0) : parse? (d.text ++ z.text) = some t :=
    parse?_spelling (none ▸ named)
  refine ⟨t, named, ?_, ?_, ?_, parse?_date d, fun s more given nine digits z =>
    parse?_more_digits given nine digits z, fun before after blankBefore blankAfter text =>
    parse?_surrounded blankBefore blankAfter text⟩
  · simp only [List.forall_mem_cons]
    have zero (colon : Bool) := universal (.offset ⟨false, 0, 0⟩ colon) rfl
    exact ⟨universal .missing rfl, universal (.letter true) rfl, universal (.letter false) rfl,
      zero true, zero false, nofun⟩
  · intro o
    obtain ⟨u, namedThere, secondThere, nanoThere⟩ := d.exists_toInstant? o.isOffset
    refine ⟨u, by omega, nanoThere.trans nano.symm, fun colon => ?_⟩
    exact parse?_spelling (z := .offset o colon) namedThere
  · intro missing
    have read := parse?_minutes missing .missing
    rw [universal .missing rfl, Zone.append_missing] at read
    exact read

/-- A midnight without its seconds or without its time of day, and a leap second whose offset leads
to the next year, with ten digits of a fraction and with white space around it. -/
theorem spellings_agree_leap :
    (∃ t, parse? "0000-02-29T00:00" = some t ∧ parse? "0000-02-29T00:00:00" = some t ∧
        parse? "0000-02-29" = some t) ∧
      ∃ t u : Instant, u.second = t.second + 86340 ∧ u.nano = t.nano ∧
        parse? "2016-12-31T23:59:60.123456789z" = some t ∧
        parse? "2016-12-31T23:59:60.123456789-2359" = some u ∧
        parse? "2016-12-31T23:59:60.1234567890-23:59" = some u ∧
        parse? "\t2016-12-31T23:59:60.123456789+00:00\u3000" = some t := by
  let minute : Spelling := ⟨⟨0, 2, 29⟩, 0, 0, none, by decide, by decide⟩
  let seconds : Seconds := ⟨60, "123456789".toList, List.all_eq_true.mp (by decide)⟩
  let leap : Spelling := ⟨⟨2016, 12, 31⟩, 23, 59, some seconds, by decide, by decide⟩
  constructor
  · obtain ⟨t, _, universal, _, whole, ⟨midnight, date, time⟩, _⟩ := spellings_agree minute
    have minuteText : minute.text ++ "" = "0000-02-29T00:00" := by decide +kernel
    have wholeText : minute.text ++ ":00" = "0000-02-29T00:00:00" := by decide +kernel
    have dateText : minute.dateText = "0000-02-29" := by decide +kernel
    have timeText : minute.dateText ++ "T00:00" = minute.text ++ "" := by decide +kernel
    have read := universal "" (by simp)
    obtain rfl : midnight = t := Option.some.inj ((timeText ▸ time).symm.trans read)
    exact ⟨midnight, minuteText ▸ read, wholeText ▸ whole rfl, dateText ▸ date⟩
  · obtain ⟨t, _, universal, offsets, _, _, more, around⟩ := spellings_agree leap
    obtain ⟨u, second, nano, there⟩ := offsets ⟨true, 23, 59⟩
    have ahead : Offset.ahead ⟨true, 23, 59⟩ = -86340 := by decide
    have zulu : leap.text ++ "z" = "2016-12-31T23:59:60.123456789z" := by decide +kernel
    have behind : leap.text ++ Offset.text ⟨true, 23, 59⟩ false =
        "2016-12-31T23:59:60.123456789-2359" := by decide +kernel
    have longer : leap.text ++ "0" ++ Zone.text (.offset ⟨true, 23, 59⟩ true) =
        "2016-12-31T23:59:60.1234567890-23:59" := by decide +kernel
    have surrounded : "\t" ++ (leap.text ++ "+00:00") ++ "\u3000" =
        "\t2016-12-31T23:59:60.123456789+00:00\u3000" := by decide +kernel
    have nine : 9 ≤ seconds.fraction.length := by decide +kernel
    have tenth := more seconds "0" rfl nine (List.all_eq_true.mp (by decide))
      (.offset ⟨true, 23, 59⟩ true)
    have outside := around "\t" "\u3000" (List.all_eq_true.mp (by decide))
      (List.all_eq_true.mp (by decide)) (leap.text ++ "+00:00")
    refine ⟨t, u, by omega, nano, zulu ▸ universal "z" (by simp), behind ▸ there false, ?_, ?_⟩
    · exact longer ▸ tenth.trans (there true)
    · exact surrounded ▸ outside.trans (universal "+00:00" (by simp))

end Instant

end Sieve.Time
