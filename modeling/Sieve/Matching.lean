import Sieve.Filter
import Sieve.Pattern
import Sieve.Time.Reading

/-! Records that satisfy a tree of filters. A record is a JSON object; a field that is missing or
null satisfies nothing but the test for null, and values that cannot be compared satisfy nothing. -/
namespace Sieve

abbrev Record := List (String × Json)

namespace Matching

/-- The order of a number in a record to a whole number: exact for whole numbers of 64 binary
digits in two's complement, else the order of binary64 numbers. -/
def orderToInteger (n : Json.Number) (i : Int) : Option Ordering :=
  match n.int64? with
  | some a => some (compare a i)
  | none => n.toReal.order? (Json.Number.whole i).toReal

def order? (actual : Json) (expected : TypedValue) : Option Ordering :=
  match expected, actual with
  | .text s, .string a => some (compare a s)
  | .integer i, .number n => orderToInteger n i
  | .real x, .number n => n.toReal.order? x
  | .boolean b, .bool a => some (compare a b)
  | .uuid u, .string a => (Uuid.parse? a).map (·.order u)
  | .timestamp t, .string a => (Time.Instant.parse? a).map (·.order t)
  | _, _ => none

def holdsOrder (admits : Ordering → Bool) (actual : Json) (expected : TypedValue) : Bool :=
  ((order? actual expected).map admits).getD false

def holdsText (test : List Char → List Char → Bool) (actual : Json) (expected : TypedValue) :
    Bool :=
  match actual, expected with
  | .string text, .text pattern => test pattern.toList text.toList
  | _, _ => false

def satisfies (op : Operator) (actual : Json) (expected : TypedValue) : Bool :=
  match op with
  | .eq => holdsOrder (· == .eq) actual expected
  | .neq => holdsOrder (· != .eq) actual expected
  | .gt => holdsOrder (· == .gt) actual expected
  | .gte => holdsOrder (· != .lt) actual expected
  | .lt => holdsOrder (· == .lt) actual expected
  | .lte => holdsOrder (· != .gt) actual expected
  | .isIn => expected.elements.any (holdsOrder (· == .eq) actual)
  | .notIn => expected.elements.all (holdsOrder (· != .eq) actual)
  | .like => holdsText Pattern.matchesText actual expected
  | .ilike => holdsText Pattern.matchesLower actual expected
  | .contains => holdsText Pattern.occursInLower actual expected
  | .isNull | .isNotNull => false

def fieldValue? (record : Record) (field : String) : Option Json :=
  (Json.member? record field).filter fun v => !v.isNull

theorem fieldValue?_eq {record : Record} {field : String} {v : Json}
    (found : Json.member? record field = some v) (notNull : v.isNull = false) :
    fieldValue? record field = some v := by
  simp [fieldValue?, found, notNull]

end Matching

namespace TypedFilter

def accepts (f : TypedFilter) (record : Record) : Bool :=
  match f.operator, Matching.fieldValue? record f.field, f.value with
  | .isNull, actual, _ => actual.isNone
  | .isNotNull, actual, _ => actual.isSome
  | op, some actual, some expected => Matching.satisfies op actual expected
  | _, _, _ => false

theorem accepts_eq_satisfies {f : TypedFilter} {record : Record} {actual : Json}
    {expected : TypedValue} (takes : f.operator.takesValue = true)
    (found : Matching.fieldValue? record f.field = some actual)
    (given : f.value = some expected) :
    f.accepts record = Matching.satisfies f.operator actual expected := by
  unfold accepts
  rw [found, given]
  cases op : f.operator with
  | isNull | isNotNull =>
    rw [op] at takes
    cases takes
  | _ => rfl

end TypedFilter

namespace Tree

def accepts (tree : Tree TypedFilter) (record : Record) : Bool :=
  tree.holds fun f => f.accepts record

def select (tree : Tree TypedFilter) (records : List Record) : List Record :=
  records.filter tree.accepts

end Tree

structure Selection where
  accepted : List Bool
  kept : List Nat

def Tree.selection (tree : Tree TypedFilter) (records : List Record) : Selection where
  accepted := records.map tree.accepts
  kept := (records.zipIdx.filter fun r => tree.accepts r.1).map Prod.snd

end Sieve
