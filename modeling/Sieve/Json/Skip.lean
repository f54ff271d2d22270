import Sieve.Json.Reader

/-! Passing over a value that nobody asks for. Its grammar is checked, but its numbers may be of any
size, its strings may hold halves of surrogate pairs, and its lists and objects may nest without
bound. -/
namespace Sieve.Json.Reader

def skipDigits : Reader Unit := fun s =>
  match s with
  | c :: _ => if c.isDigit then .ok ((), s.dropWhile Char.isDigit) else .error .invalidNumber
  | [] => .error .invalidNumber

def skipExponent : Reader Unit := fun s =>
  match s with
  | 'e' :: rest | 'E' :: rest =>
    match rest with
    | '+' :: digits | '-' :: digits => skipDigits digits
    | digits => skipDigits digits
  | _ => .ok ((), s)

def skipNumber : Reader Unit := fun s =>
  match s with
  | [] => .error .invalidNumber
  | c :: rest =>
    if c = '0' && (rest.head?.map Char.isDigit).getD false then .error .invalidNumber
    else if c.isDigit then
      match (if c = '0' then rest else s.dropWhile Char.isDigit) with
      | '.' :: fraction =>
        match skipDigits fraction with
        | .error e => .error e
        | .ok (_, rest) => skipExponent rest
      | rest => skipExponent rest
    else .error .invalidNumber

def skipString : Nat → Reader Unit
  | 0 => fail .endInString
  | limit + 1 => fun s =>
    match s with
    | [] => .error .endInString
    | c :: rest =>
      if c = '\x22' then .ok ((), rest)
      else if c = '\\' then
        match rest with
        | [] => .error .endInString
        | d :: rest =>
          if d = 'u' then
            match fourHex rest with
            | .error e => .error e
            | .ok (_, rest) => skipString limit rest
          else if ['\x22', '\\', '/', 'b', 'f', 'n', 'r', 't'].contains d then skipString limit rest
          else .error .invalidEscape
      else if c.toNat < 32 then .error .controlCharacter
      else skipString limit rest

inductive Holder where
  | list
  | object
  deriving DecidableEq

/-- Where a value that is passed over stands: before a value, or behind one inside of the innermost
holder, or right after the bracket of that holder. -/
inductive Place where
  | before
  | behind
  | opened

def skipName (limit : Nat) (holder : Holder) : Reader Unit := fun s =>
  match holder with
  | .list => .ok ((), s)
  | .object =>
    match skipSpace s with
    | [] => .error .endInObject
    | c :: rest =>
      if c = '\x22' then
        match skipString limit rest with
        | .error e => .error e
        | .ok (_, rest) => colon rest
      else .error .keyNotString

/-- Passes over a value, given the holders that are open around the place, the innermost first.
A comma calls for another item in a list and for another name in an object. -/
def skipFrom (limit : Nat) : Nat → Place → List Holder → Reader Unit
  | 0, _, _ => fail .endInValue
  | _ + 1, .behind, [] => fun s => .ok ((), s)
  | _ + 1, .opened, [] => fun s => .ok ((), s)
  | left + 1, .before, holders => fun s =>
    match skipSpace s with
    | [] => .error .endInValue
    | c :: rest =>
      let behind : Except Fault (Unit × List Char) → Except Fault (Unit × List Char)
        | .error e => .error e
        | .ok (_, rest) => skipFrom limit left .behind holders rest
      if c = 'n' then behind (word ['u', 'l', 'l'] rest)
      else if c = 't' then behind (word ['r', 'u', 'e'] rest)
      else if c = 'f' then behind (word ['a', 'l', 's', 'e'] rest)
      else if c = '-' then behind (skipNumber rest)
      else if c.isDigit then behind (skipNumber (c :: rest))
      else if c = '\x22' then behind (skipString limit rest)
      else if c = '[' then skipFrom limit left .opened (.list :: holders) rest
      else if c = '\x7b' then skipFrom limit left .opened (.object :: holders) rest
      else .error .expectedValue
  | left + 1, place, holder :: outer => fun s =>
    let isBehind := match place with
      | .behind => true
      | _ => false
    match skipSpace s with
    | [] => .error (match holder with
      | .list => .endInList
      | .object => .endInObject)
    | c :: rest =>
      if c = ',' && isBehind then
        match skipName limit holder rest with
        | .error e => .error e
        | .ok (_, rest) => skipFrom limit left .before (holder :: outer) rest
      else if (c = ']' && holder = .list) || (c = '\x7d' && holder = .object) then
        skipFrom limit left .behind outer rest
      else if isBehind then .error (match holder with
        | .list => .expectedListComma
        | .object => .expectedObjectComma)
      else
        match skipName limit holder (c :: rest) with
        | .error e => .error e
        | .ok (_, rest) => skipFrom limit left .before (holder :: outer) rest

/-- Passes over one value. Each step passes a character or goes from before a value to behind it. -/
def skip (limit : Nat) : Reader Unit :=
  skipFrom limit (2 * limit + 1) .before []

end Sieve.Json.Reader
