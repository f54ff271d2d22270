import Sieve.Text.Ascii
import Sieve.Text.Blank
import Sieve.Time.Instant

/-! Reading a date and time from text: the strict form of RFC 3339 first, then looser forms of
ISO 8601 with optional seconds, with the offset in two spellings or without one, and bare dates. -/
namespace Sieve.Time

/-- A date and a time of day as written, with the number of seconds by which the written time is
ahead of universal time. -/
structure Reading where
  date : Date
  hour : Nat
  minute : Nat
  second : Nat
  nano : Nat
  ahead : Int

namespace Reading

/-- The instant that is meant. Second 60 is the leap second after second 59, and offsets are less
than a day. -/
def toInstant? (r : Reading) : Option Instant :=
  if r.date.isValid && minYear ≤ r.date.year && r.date.year ≤ maxYear && r.hour ≤ 23 &&
      r.minute ≤ 59 && r.second ≤ 60 && r.ahead.natAbs < 86400 then
    let leap := r.second == 60
    let second := if leap then 59 else r.second
    Instant.make?
      (r.date.toDays * 86400 + (r.hour * 3600 + r.minute * 60 + second : Nat) - r.ahead)
      (if leap then r.nano + 1000000000 else r.nano)
  else none

end Reading

abbrev Reader (α : Type) := StateT (List Char) Option α

namespace Reader

def digits (least most : Nat) : Reader (List Char) := fun s =>
  let found := (s.take most).takeWhile Char.isDigit
  if found.length < least then none else some (found, s.drop found.length)

def exactly (count : Nat) : Reader Nat := do
  return Text.ofDigits (← digits count count)

def literal (c : Char) : Reader Unit
  | [] => none
  | d :: rest => if d = c then some ((), rest) else none

def loose : Reader Nat := do
  modify Text.trimStart
  return Text.ofDigits (← digits 1 2)

/-- A year after white space: up to four digits, or any number of them after a sign. -/
def year : Reader Int := do
  modify Text.trimStart
  match ← get with
  | '-' :: rest =>
    set rest
    return -(Text.ofDigits (← digits 1 rest.length) : Int)
  | '+' :: rest =>
    set rest
    return Text.ofDigits (← digits 1 rest.length)
  | _ => return Text.ofDigits (← digits 1 4)

/-- The nanoseconds that the digits after a point count; those after the ninth are passed over. -/
def nanoseconds : Reader Nat := do
  let found ← digits 1 9
  modify (List.dropWhile Char.isDigit)
  return Text.ofDigits found * Nat.pow 10 (9 - found.length)

def fraction : Reader Nat := fun s =>
  match s with
  | '.' :: rest => nanoseconds rest
  | _ => some (0, s)

/-- A sign, two digits of hours, what `between` passes over, and two digits of minutes, in seconds.
The minus sign may be the hyphen or U+2212. -/
def offset (between : Reader Unit) : Reader Int := do
  let sign : Int ← fun s =>
    match s with
    | '+' :: rest => some (1, rest)
    | c :: rest => if c = '-' || c = Char.ofNat 0x2212 then some (-1, rest) else none
    | [] => none
  let hours ← exactly 2
  between
  let minutes ← exactly 2
  if minutes ≤ 59 then return sign * (hours * 3600 + minutes * 60 : Nat)
  else failure

def strictOffset : Reader Int := fun s =>
  match s with
  | 'Z' :: rest | 'z' :: rest => some (0, rest)
  | _ => offset (literal ':') s

def looseOffset : Reader Int := do
  modify Text.trimStart
  offset (modify (List.dropWhile fun c => c == ':' || Text.isBlank c))

def strict : Reader Reading := do
  let year ← exactly 4
  literal '-'
  let month ← exactly 2
  literal '-'
  let day ← exactly 2
  (fun s =>
    match s with
    | 'T' :: rest | 't' :: rest | ' ' :: rest => some ((), rest)
    | _ => none)
  let hour ← exactly 2
  literal ':'
  let minute ← exactly 2
  literal ':'
  let second ← exactly 2
  let nano ← fraction
  let ahead ← strictOffset
  return ⟨⟨year, month, day⟩, hour, minute, second, nano, ahead⟩

def date : Reader Date := do
  let year ← year
  literal '-'
  let month ← loose
  literal '-'
  return ⟨year, month, ← loose⟩

def seconds : Reader (Nat × Nat) := do
  literal ':'
  let second ← loose
  return (second, ← fraction)

def dateTime (seconds : Reader (Nat × Nat)) (ahead : Reader Int) : Reader Reading := do
  let date ← date
  literal 'T'
  let hour ← loose
  literal ':'
  let minute ← loose
  let (second, nano) ← seconds
  return ⟨date, hour, minute, second, nano, ← ahead⟩

def whole (form : Reader Reading) (s : List Char) : Option Instant :=
  match form s with
  | some (reading, []) => reading.toInstant?
  | _ => none

def plain (s : List Char) : Option Instant :=
  (whole (dateTime seconds (pure 0)) s).or (whole (dateTime (pure (0, 0)) (pure 0)) s)

def withOffset (s : List Char) : Option Instant :=
  (whole (dateTime seconds looseOffset) s).or (whole (dateTime (pure (0, 0)) looseOffset) s)

def bareDate (s : List Char) : Option Instant :=
  whole (do return ⟨← date, 0, 0, 0, 0, 0⟩) s

def beforeZ? (s : List Char) : Option (List Char) :=
  match s.reverse with
  | 'Z' :: rest | 'z' :: rest => some rest.reverse
  | _ => none

end Reader

namespace Instant

def ofChars? (s : List Char) : Option Instant :=
  let s := Text.trim s
  match Reader.whole Reader.strict s with
  | some t => some t
  | none =>
    match Reader.beforeZ? s with
    | some body => Reader.plain body
    | none => ((Reader.withOffset s).or (Reader.plain s)).or (Reader.bareDate s)

def parse? (s : String) : Option Instant :=
  ofChars? s.toList

end Instant
end Sieve.Time
