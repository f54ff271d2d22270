import Sieve.Error
import Sieve.Filter
import Sieve.Json.Reader
import Sieve.Settings.Basic
import Sieve.Text.Blank

/-! Filters written as JSON documents, in two forms. A flat document maps fields to values, or to
objects of operators and values; a tree document spells groups of filters. -/
namespace Sieve.Document

mutual

def operand (field : String) : Json → Except FilterError (Option RawValue)
  | .null => .ok none
  | .bool b => .ok (some (.bool b))
  | .number n => .ok (some (.number n))
  | .string s => .ok (some (.text s))
  | .array items =>
    match elements field items with
    | .error e => .error e
    | .ok values => .ok (some (.list values))
  | .object _ => .error (.malformedField field .objectValue)

/-- The elements of a list; each is an operand by itself before it is refused as an element. -/
def elements (field : String) : List Json → Except FilterError (List RawValue)
  | [] => .ok []
  | item :: rest =>
    match operand field item with
    | .error e => .error e
    | .ok none => .error (.malformedField field .nullElement)
    | .ok (some (.list _)) => .error (.malformedField field .nestedList)
    | .ok (some value) =>
      match elements field rest with
      | .error e => .error e
      | .ok values => .ok (value :: values)

end

abbrev Walk (α : Type) := StateT Nat (Except FilterError) α

def countFilter (limits : Limits) : Walk Unit := fun count =>
  if limits.maxFilters < count + 1 then .error (.malformed (.tooManyFilters limits.maxFilters))
  else .ok ((), count + 1)

def flatFilter (limits : Limits) (field operator : String) (value : Json) : Walk Filter := do
  countFilter limits
  return ⟨field, operator, ← operand field value⟩

/-- The filters of one member of a flat document. Null asks whether the field is null, another
value by itself is compared for equality. -/
def flatMember (limits : Limits) (member : String × Json) : Walk (List Filter) :=
  match member with
  | (field, .object []) => throw (.malformedField field .noOperators)
  | (field, .object operators) =>
    operators.mapM fun operator => flatFilter limits field operator.1 operator.2
  | (field, .null) => do
    countFilter limits
    return [⟨field, Operator.isNull.name, none⟩]
  | (field, value) => do
    return [← flatFilter limits field Operator.eq.name value]

def flat (limits : Limits) (members : List (String × Json)) : Walk (Tree Filter) := do
  return Tree.all (← members.mapM (flatMember limits)).flatten

def groupKeys : List String :=
  ["operator", "filters", "groups"]

def filterKeys : List String :=
  ["field", "op", "operator", "value"]

def checkKeys (known : List String) (part : DocumentPart) (members : List (String × Json)) :
    Except FilterError Unit :=
  match members.find? fun m => !known.contains m.1 with
  | some m => .error (.malformed (.unknownKey m.1 part))
  | none => .ok ()

def connective (members : List (String × Json)) : Except FilterError Connective :=
  match Json.member? members "operator" with
  | none | some .null => .ok .and
  | some (.string s) =>
    if Text.sameIgnoringCase s Connective.and.name then .ok .and
    else if Text.sameIgnoringCase s Connective.or.name then .ok .or
    else .error (.malformed (.unknownConnective s))
  | some value => .error (.malformed (.invalidConnective value))

def nonBlank? : Json → Option String
  | .string s =>
    let s := Text.trimmed s
    if s.isEmpty then none else some s
  | _ => none

def fieldOf (members : List (String × Json)) : Except FilterError String :=
  match (Json.member? members "field").bind nonBlank? with
  | some field => .ok field
  | none => .error (.malformed .noField)

/-- The operator that a filter names, under one key or else under the other; equality if there is
neither. -/
def operatorOf (field : String) (members : List (String × Json)) : Except FilterError String :=
  match (Json.member? members "op").or (Json.member? members "operator") with
  | none => .ok Operator.eq.name
  | some value =>
    match nonBlank? value with
    | some operator => .ok operator
    | none => .error (.malformedField field .invalidOperator)

def filter (members : List (String × Json)) : Except FilterError Filter := do
  checkKeys filterKeys .filter members
  let field ← fieldOf members
  let operator ← operatorOf field members
  let value ←
    match Json.member? members "value" with
    | some value => operand field value
    | none => pure none
  return ⟨field, operator, value⟩

def asObject (key : String) : Json → Except FilterError (List (String × Json))
  | .object members => .ok members
  | _ => .error (.malformed (.entryNotObject key))

def objectsUnder (key : String) (members : List (String × Json)) :
    Except FilterError (List (List (String × Json))) :=
  match Json.member? members key with
  | none | some .null => .ok []
  | some (.array items) => items.mapM (asObject key)
  | some _ => .error (.malformed (.notArray key))

def treeFilter (limits : Limits) (members : List (String × Json)) : Walk Filter := do
  countFilter limits
  filter members

def group (limits : Limits) : Nat → List (String × Json) → Walk (Tree Filter)
  | 0, _ => throw (.malformed (.nestedTooDeep limits.maxDepth))
  | levels + 1, members => do
    checkKeys groupKeys .group members
    let c ← connective members
    let filters ← objectsUnder "filters" members
    let filters ← filters.mapM (treeFilter limits)
    let groups ← objectsUnder "groups" members
    let groups ← groups.mapM (group limits levels)
    return .group c filters groups

def isArray : Json → Bool
  | .array _ => true
  | _ => false

/-- A document is a tree if there is a list of filters or of groups; in every other, these names
are fields like others. -/
def isTree (members : List (String × Json)) : Bool :=
  ["filters", "groups"].any fun key => ((Json.member? members key).map isArray).getD false

def ofJson (limits : Limits) (document : Json) : Except FilterError (Tree Filter) :=
  match document with
  | .object members =>
    let walk := if isTree members then group limits limits.maxDepth members else flat limits members
    (walk 0).map Prod.fst
  | _ => .error (.malformed .notObject)

def parse (limits : Limits) (text : String) : Except FilterError (Tree Filter) :=
  if limits.maxInputBytes < text.utf8ByteSize then
    .error (.malformed (.documentTooLong limits.maxInputBytes))
  else match Json.parse text with
    | .error fault => .error (.malformed (.notJson fault))
    | .ok document => ofJson limits document

end Sieve.Document
