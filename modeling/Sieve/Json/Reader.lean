import Sieve.Json.Numeral

/-! Reading JSON text from the front. A reader takes the characters left and gives a result with
what it leaves over, or the first fault it meets. Loops are bounded by the length of the text. -/
namespace Sieve.Json

abbrev Reader (α : Type) := StateT (List Char) (Except Fault) α

namespace Reader

def fail {α : Type} (fault : Fault) : Reader α :=
  fun _ => .error fault

def isSpace (c : Char) : Bool :=
  c == ' ' || c == '\t' || c == '\n' || c == '\r'

def skipSpace (s : List Char) : List Char :=
  s.dropWhile isSpace

def word : List Char → Reader Unit
  | [] => fun s => .ok ((), s)
  | letter :: letters => fun s =>
    match s with
    | [] => .error .endInValue
    | c :: rest => if c = letter then word letters rest else .error .expectedIdent

/-- Four hexadecimal digits. Fewer than four bytes are a text that ends too early. -/
def fourHex : Reader Nat
  | s =>
    if (s.take 4).foldl (fun bytes c => bytes + c.utf8Size) 0 < 4 then .error .endInString
    else match s with
      | a :: b :: c :: d :: rest =>
        match Text.ofHex? [a, b, c, d] with
        | some n => .ok (n, rest)
        | none => .error .invalidEscape
      | _ => .error .invalidEscape

def isHighSurrogate (n : Nat) : Bool :=
  0xD800 ≤ n && n ≤ 0xDBFF

def isLowSurrogate (n : Nat) : Bool :=
  0xDC00 ≤ n && n ≤ 0xDFFF

def numberedChar : Reader Char := do
  let high ← fourHex
  if isLowSurrogate high then fail .loneSurrogate
  else if !isHighSurrogate high then return Char.ofNat high
  else fun s =>
    match s with
    | [] | ['\\'] => .error .endInString
    | '\\' :: 'u' :: rest =>
      match fourHex rest with
      | .error e => .error e
      | .ok (low, rest) =>
        if isLowSurrogate low then
          .ok (Char.ofNat (0x10000 + (high - 0xD800) * 0x400 + (low - 0xDC00)), rest)
        else .error .loneSurrogate
    | _ => .error .unfinishedSurrogate

def escape : Reader Char
  | [] => .error .endInString
  | c :: rest =>
    if c = '\x22' || c = '\\' || c = '/' then .ok (c, rest)
    else if c = 'b' then .ok ('\x08', rest)
    else if c = 'f' then .ok ('\x0c', rest)
    else if c = 'n' then .ok ('\n', rest)
    else if c = 'r' then .ok ('\r', rest)
    else if c = 't' then .ok ('\t', rest)
    else if c = 'u' then numberedChar rest
    else .error .invalidEscape

/-- The characters of a string up to its closing quote, added to those in `done`, which stand
backwards. -/
def stringBody : Nat → List Char → Reader String
  | 0, _ => fail .endInString
  | limit + 1, done => fun s =>
    match s with
    | [] => .error .endInString
    | c :: rest =>
      if c = '\x22' then .ok (String.ofList done.reverse, rest)
      else if c = '\\' then
        match escape rest with
        | .error e => .error e
        | .ok (escaped, rest) => stringBody limit (escaped :: done) rest
      else if c.toNat < 32 then .error .controlCharacter
      else stringBody limit (c :: done) rest

def hasItem (first : Bool) : Reader Bool := fun s =>
  match skipSpace s with
  | [] => .error .endInList
  | c :: rest =>
    if c = ']' then .ok (false, c :: rest)
    else if first then .ok (true, c :: rest)
    else if c = ',' then
      match skipSpace rest with
      | [] => .error .endInValue
      | ']' :: _ => .error .trailingComma
      | rest => .ok (true, rest)
    else .error .expectedListComma

def closeList : Reader Unit := fun s =>
  match skipSpace s with
  | [] => .error .endInList
  | ']' :: rest => .ok ((), rest)
  | ',' :: rest =>
    match skipSpace rest with
    | ']' :: _ => .error .trailingComma
    | _ => .error .trailingCharacters
  | _ => .error .trailingCharacters

def itemsFrom {α : Type} (item : Reader α) : Nat → Bool → List α → Reader (List α)
  | 0, _, _ => fail .endInList
  | limit + 1, first, done => fun s =>
    match hasItem first s with
    | .error e => .error e
    | .ok (false, rest) => (closeList rest).map fun closed => (done.reverse, closed.2)
    | .ok (true, rest) =>
      match item rest with
      | .error e => .error e
      | .ok (x, rest) => itemsFrom item limit false (x :: done) rest

def items {α : Type} (limit : Nat) (item : Reader α) : Reader (List α) :=
  itemsFrom item limit true []

def memberName? (limit : Nat) (first : Bool) : Reader (Option String) := fun s =>
  match skipSpace s with
  | [] => .error .endInObject
  | c :: rest =>
    if c = '\x7d' then .ok (none, rest)
    else if first then
      if c = '\x22' then (stringBody limit [] rest).map fun read => (some read.1, read.2)
      else .error .keyNotString
    else if c = ',' then
      match skipSpace rest with
      | [] => .error .endInValue
      | d :: rest =>
        if d = '\x22' then (stringBody limit [] rest).map fun read => (some read.1, read.2)
        else if d = '\x7d' then .error .trailingComma
        else .error .keyNotString
    else .error .expectedObjectComma

def colon : Reader Unit := fun s =>
  match skipSpace s with
  | [] => .error .endInObject
  | ':' :: rest => .ok ((), rest)
  | _ => .error .expectedColon

def membersFrom {σ : Type} (limit : Nat) (step : σ → String → Reader σ) :
    Nat → Bool → σ → Reader σ
  | 0, _, _ => fail .endInObject
  | left + 1, first, state => fun s =>
    match memberName? limit first s with
    | .error e => .error e
    | .ok (none, rest) => .ok (state, rest)
    | .ok (some name, rest) =>
      match step state name rest with
      | .error e => .error e
      | .ok (state, rest) => membersFrom limit step left false state rest

def members {σ : Type} (limit : Nat) (step : σ → String → Reader σ) (start : σ) : Reader σ :=
  membersFrom limit step limit true start

def scalar (limit : Nat) : Reader Json := fun s =>
  match s with
  | [] => .error .endInValue
  | c :: rest =>
    if c = 'n' then (word ['u', 'l', 'l'] rest).map fun read => (null, read.2)
    else if c = 't' then (word ['r', 'u', 'e'] rest).map fun read => (bool true, read.2)
    else if c = 'f' then (word ['a', 'l', 's', 'e'] rest).map fun read => (bool false, read.2)
    else if c = '-' then (unsignedNumber true rest).map fun read => (number read.1, read.2)
    else if c.isDigit then (unsignedNumber false s).map fun read => (number read.1, read.2)
    else if c = '\x22' then (stringBody limit [] rest).map fun read => (string read.1, read.2)
    else .error .expectedValue

def setMemberFrom (read : Reader Json) (done : List (String × Json)) (name : String) :
    Reader (List (String × Json)) := do
  colon
  return setMember name (← read) done

def value (limit : Nat) : Nat → Reader Json
  | 0 => fun s =>
    match skipSpace s with
    | '[' :: _ | '\x7b' :: _ => .error .nestedTooDeep
    | rest => scalar limit rest
  | depth + 1 => fun s =>
    match skipSpace s with
    | '[' :: rest => (items limit (value limit depth) rest).map fun read => (array read.1, read.2)
    | '\x7b' :: rest =>
      (members limit (setMemberFrom (value limit depth)) [] rest).map fun read =>
        (object read.1, read.2)
    | rest => scalar limit rest

/-- The whole of a text, read by a reader that is given the bound for its loops; only white space
may be left. -/
def wholeText {α : Type} (reader : Nat → Reader α) (text : String) : Except Fault α :=
  let s := text.toList
  match reader (s.length + 1) s with
  | .error e => .error e
  | .ok (x, rest) => if (skipSpace rest).isEmpty then .ok x else .error .trailingCharacters

end Reader

def maxNesting : Nat := 127

def parse (text : String) : Except Fault Json :=
  Reader.wholeText (fun limit => Reader.value limit maxNesting) text

end Sieve.Json
