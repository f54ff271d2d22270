import Sieve.Json.Skip

/-! Documents of a fixed shape, read in the order of the text: the first thing that the shape does
not admit is the fault, even if the text goes wrong later. -/
namespace Sieve.Json.Reader

def atValue : Reader Unit := fun s =>
  match skipSpace s with
  | [] => .error .endInValue
  | rest => .ok ((), rest)

/-- The fault of a value of another kind. A value that is itself faulty is told so. -/
def mismatch {α : Type} (limit : Nat) (expected : String) : Reader α := fun s =>
  match s with
  | '[' :: _ => .error (.invalidType .sequence expected)
  | '\x7b' :: _ => .error (.invalidType .map expected)
  | _ =>
    match scalar limit s with
    | .error e => .error e
    | .ok (.bool b, _) => .error (.invalidType (.bool b) expected)
    | .ok (.number n, _) => .error (.invalidType (.number n) expected)
    | .ok (.string t, _) => .error (.invalidType (.string t) expected)
    | .ok (_, _) => .error (.invalidType .null expected)

def string (limit : Nat) : Reader String := do
  atValue
  fun s =>
    match s with
    | c :: rest => if c = '\x22' then stringBody limit [] rest else mismatch limit "a string" s
    | [] => .error .endInValue

def listOf {α : Type} (limit : Nat) (item : Reader α) : Reader (List α) := do
  atValue
  fun s =>
    match s with
    | '[' :: rest => items limit item rest
    | _ => mismatch limit "a sequence" s

def mapOf {α : Type} (limit : Nat) (item : Reader α) : Reader (List (String × α)) := do
  atValue
  fun s =>
    match s with
    | '\x7b' :: rest =>
      let step (done : List (String × α)) (name : String) : Reader (List (String × α)) := do
        colon
        return (name, ← item) :: done
      (members limit step [] rest).map fun read => (read.1.reverse, read.2)
    | _ => mismatch limit "a map" s

def nullable {α : Type} (item : Reader α) : Reader (Option α) := fun s =>
  match skipSpace s with
  | 'n' :: rest => (word ['u', 'l', 'l'] rest).map fun read => (none, read.2)
  | rest => (item rest).map fun read => (some read.1, read.2)

def naturalUpTo (limit : Nat) (bound : Nat) (expected : String) : Reader Nat := do
  atValue
  fun s =>
    let check : Except Fault (Number × List Char) → Except Fault (Nat × List Char)
      | .error e => .error e
      | .ok (.whole i, rest) =>
        if 0 ≤ i && i ≤ bound then .ok (i.toNat, rest) else .error (.invalidValue i expected)
      | .ok (.real x, _) => .error (.invalidType (.number (.real x)) expected)
    match s with
    | '-' :: rest => check (unsignedNumber true rest)
    | c :: _ => if c.isDigit then check (unsignedNumber false s) else mismatch limit expected s
    | [] => .error .endInValue

def variantNamed {α : Type} (variants : List (String × α)) (name : String) : Reader α :=
  match variants.find? (·.1 == name) with
  | some variant => return variant.2
  | none => fail (.unknownVariant name (variants.map Prod.fst))

def unit (limit : Nat) : Reader Unit := do
  atValue
  fun s =>
    match s with
    | 'n' :: rest => word ['u', 'l', 'l'] rest
    | _ => mismatch limit "unit" s

def variant {α : Type} (limit : Nat) (variants : List (String × α)) : Reader α := do
  atValue
  fun s =>
    match s with
    | '\x7b' :: rest =>
      let body : Reader α := do
        match ← memberName? limit true with
        | none => fail .expectedValue
        | some name =>
          let found ← variantNamed variants name
          colon
          unit limit
          fun s =>
            match skipSpace s with
            | [] => .error .endInObject
            | c :: rest => if c = '\x7d' then .ok (found, rest) else .error .expectedValue
      body rest
    | '\x22' :: rest => (stringBody limit [] >>= variantNamed variants) rest
    | _ => .error .expectedValue

/-- A record: an object of named fields, or a list of the fields in their order. `step` reads the
colon and the value of a field, `finish` looks for what is missing. -/
def record {σ α : Type} (limit : Nat) (expected : String) (start : σ)
    (step : σ → String → Reader σ) (finish : σ → Except Fault α) (fields : Reader α) :
    Reader α := do
  atValue
  fun s =>
    match s with
    | '[' :: rest =>
      match fields rest with
      | .error e => .error e
      | .ok (x, rest) => (closeList rest).map fun closed => (x, closed.2)
    | '\x7b' :: rest =>
      match members limit step start rest with
      | .error e => .error e
      | .ok (state, rest) => (finish state).map (·, rest)
    | _ => mismatch limit expected s

def field {α : Type} (name : String) (before : Option α) (item : Reader α) : Reader α := do
  if before.isSome then fail (.duplicateField name)
  colon
  item

def nextField {α : Type} (first : Bool) (item : Reader α) (absent : Except Fault α) :
    Reader α := do
  if ← hasItem first then item
  else fun s => absent.map (·, s)

end Sieve.Json.Reader
