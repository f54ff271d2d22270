import Sieve.Text.Ascii

/-! The operators of filters and the types of fields. -/
namespace Sieve

inductive Operator where
  | eq
  | neq
  | gt
  | gte
  | lt
  | lte
  | isIn
  | notIn
  | contains
  | like
  | ilike
  | isNull
  | isNotNull
  deriving DecidableEq

namespace Operator

def all : List Operator :=
  [eq, neq, gt, gte, lt, lte, isIn, notIn, contains, like, ilike, isNull, isNotNull]

def name : Operator → String
  | eq => "eq"
  | neq => "neq"
  | gt => "gt"
  | gte => "gte"
  | lt => "lt"
  | lte => "lte"
  | isIn => "in"
  | notIn => "nin"
  | contains => "contains"
  | like => "like"
  | ilike => "ilike"
  | isNull => "isNull"
  | isNotNull => "isNotNull"

/-- The operator of a name, in any ASCII case. -/
def ofName? (s : String) : Option Operator :=
  all.find? fun op => Text.sameIgnoringCase op.name s

theorem ofName?_name (op : Operator) : ofName? op.name = some op := by
  cases op <;> decide +kernel

theorem ofName?_congr {s t : String} (same : Text.sameIgnoringCase s t = true) :
    ofName? s = ofName? t := by
  unfold ofName?
  congr 1
  funext op
  have lower : s.toList.map Char.toLower = t.toList.map Char.toLower := beq_iff_eq.mp same
  rw [Text.sameIgnoringCase, Text.sameIgnoringCase, lower]

/-- No text is the name of two operators. -/
theorem ofName?_eq_some_iff {s : String} {op : Operator} :
    ofName? s = some op ↔ Text.sameIgnoringCase op.name s = true := by
  constructor
  · intro found
    have named := List.find?_some found
    exact named
  · intro same
    rw [← ofName?_congr same, ofName?_name]

def isNullCheck : Operator → Bool
  | isNull | isNotNull => true
  | _ => false

def takesList : Operator → Bool
  | isIn | notIn => true
  | _ => false

def takesValue (op : Operator) : Bool :=
  !op.isNullCheck

theorem takesValue_of_takesList {op : Operator} (takesList : op.takesList = true) :
    op.takesValue = true := by
  cases op <;> cases takesList <;> rfl

end Operator

inductive FieldType where
  | string
  | number
  | boolean
  | uuid
  | timestamp
  | enumeration
  deriving DecidableEq

namespace FieldType

def all : List FieldType :=
  [string, number, boolean, uuid, timestamp, enumeration]

def name : FieldType → String
  | string => "string"
  | number => "number"
  | boolean => "boolean"
  | uuid => "uuid"
  | timestamp => "timestamp"
  | enumeration => "enum"

def ofName? (s : String) : Option FieldType :=
  all.find? fun t => t.name == s

def defaultOperators : FieldType → List Operator
  | string => [.eq, .neq, .isIn, .notIn, .contains, .like, .ilike]
  | number => [.eq, .neq, .gt, .gte, .lt, .lte, .isIn, .notIn]
  | boolean => [.eq]
  | uuid => [.eq, .isIn]
  | timestamp => [.eq, .gt, .gte, .lt, .lte]
  | enumeration => [.eq, .isIn]

def permits (t : FieldType) (op : Operator) : Bool :=
  op.isNullCheck || t.defaultOperators.contains op

theorem nodup_defaultOperators (t : FieldType) : t.defaultOperators.Nodup := by
  cases t <;> decide

end FieldType
end Sieve
