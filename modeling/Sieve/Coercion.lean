import Sieve.Text.Blank
import Sieve.Time.Reading
import Sieve.Validation

/-! Giving the values of filters the types of their fields. A value that has the type already stays
the same. -/
namespace Sieve.Coercion

/-- A number in text: whole if it has 64 binary digits, else the nearest binary64 number. -/
def numberOfText? (s : String) : Option TypedValue :=
  let s := Text.trim s.toList
  match readInt64? s with
  | some i => some (.integer i)
  | none => ((readReal? s).bind Real64.finite?).map fun x => .real (.finite x)

def numberOfJson? (n : Json.Number) : Option TypedValue :=
  match n.int64? with
  | some i => some (.integer i)
  | none => n.toReal.finite?.map fun x => .real (.finite x)

def number? : RawValue → Option TypedValue
  | .number n => numberOfJson? n
  | .text s => numberOfText? s
  | _ => none

def boolean? : RawValue → Option TypedValue
  | .bool b => some (.boolean b)
  | .text s =>
    if Text.sameIgnoringCase s "true" then some (.boolean true)
    else if Text.sameIgnoringCase s "false" then some (.boolean false)
    else none
  | _ => none

def uuid? : RawValue → Option TypedValue
  | .text s => (Uuid.parse? s).map .uuid
  | _ => none

def timestamp? : RawValue → Option TypedValue
  | .text s => (Time.Instant.parse? s).map .timestamp
  | _ => none

def candidate? : RawValue → Option String
  | .text s => some s
  | .number n => some n.text
  | _ => none

def member? (allowed : List String) (v : RawValue) : Option TypedValue :=
  ((candidate? v).filter allowed.contains).map .text

def expect (e : FilterError) : Option TypedValue → Except FilterError TypedValue
  | some v => .ok v
  | none => .error e

def scalar (definition : FieldDefinition) (field : String) (v : RawValue) :
    Except FilterError TypedValue :=
  let shown := v.display
  if v.isList then .error (.invalidType field ("a single " ++ definition.fieldType.name) shown)
  else match definition.fieldType with
    | .string => .ok (.text shown)
    | .number => expect (.invalidType field "a number" shown) (number? v)
    | .boolean => expect (.invalidType field "true or false" shown) (boolean? v)
    | .uuid => expect (.invalidUuid field shown) (uuid? v)
    | .timestamp => expect (.invalidDate field shown) (timestamp? v)
    | .enumeration =>
      expect (.invalidEnum field shown definition.enumValues) (member? definition.enumValues v)

/-- Gives the value of a filter the type of its field: nothing for a null check, every item of a
list for an operator that takes one, and otherwise the value itself. -/
def value (definition : FieldDefinition) (op : Operator) (field : String)
    (v : Option RawValue) : Except FilterError (Option TypedValue) :=
  if !op.takesValue then .ok none
  else match v with
    | none => .error (.missingValue field op)
    | some v =>
      if op.takesList then
        match v with
        | .list items =>
          (items.mapM (scalar definition field)).map fun values => some (.list values)
        | _ => .error (.invalidIn field op.name)
      else (scalar definition field v).map some

end Coercion

def Filter.coerce (schema : Schema) (f : Filter) : Except FilterError TypedFilter := do
  let (definition, op) ← f.resolve schema
  let value ← Coercion.value definition op f.field f.value
  return ⟨f.field, definition.column, op, value⟩

namespace Tree

def coerceFailFast (schema : Schema) (tree : Tree Filter) :
    Except (List FilterError) (Tree TypedFilter) :=
  match tree.mapM (Filter.coerce schema) with
  | .error e => .error [e]
  | .ok typed => .ok typed

def coerceExhaustive (schema : Schema) (tree : Tree Filter) :
    Except (List FilterError) (Tree TypedFilter) :=
  let results := tree.map (Filter.coerce schema)
  match results.leaves.filterMap errorOf? with
  | [] =>
    match results.mapM id with
    | .error e => .error [e]
    | .ok typed => .ok typed
  | errors => .error errors

def coerce (schema : Schema) (mode : ValidationMode) (tree : Tree Filter) :
    Except (List FilterError) (Tree TypedFilter) :=
  match mode with
  | .failFast => tree.coerceFailFast schema
  | .exhaustive => tree.coerceExhaustive schema

end Tree
end Sieve
