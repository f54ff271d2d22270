import Sieve.Json.Fault
import Sieve.Operator

/-! Definitions of fields, and what is wrong with those that no schema takes. -/
namespace Sieve

inductive SchemaError where
  | emptyEnum (field : String)
  | unexpectedEnumValues (field : String)
  | operatorNotPermitted (field : String) (operator : Operator) (fieldType : FieldType)
  | noOperators (field : String)
  | unknownOperator (field operator : String)
  | invalidColumn (field column : String)
  | duplicateField (field : String)
  | document (fault : Json.Fault)

namespace SchemaError

def message : SchemaError → String
  | emptyEnum field => s!"Field '{field}' of type enum must declare at least one enum value"
  | unexpectedEnumValues field =>
    s!"Field '{field}' declares enum values but is not of type enum"
  | operatorNotPermitted field operator fieldType =>
    s!"Operator '{operator.name}' is not permitted for field '{field}' of type {fieldType.name}"
  | noOperators field => s!"Field '{field}' declares an empty operator set"
  | unknownOperator field operator => s!"Unknown operator '{operator}' on field '{field}'"
  | invalidColumn field column =>
    s!"Column '{column}' of field '{field}' is not a valid SQL identifier"
  | duplicateField field => s!"Field '{field}' is defined more than once"
  | document fault => s!"Invalid schema document: {fault.message}"

end SchemaError

def isIdentifier : List Char → Bool
  | [] => false
  | c :: rest => (c.isAlpha || c == '_') && rest.all fun d => d.isAlphanum || d == '_'

def isColumn (column : String) : Bool :=
  match Text.pieces '.' column.toList with
  | [name] => isIdentifier name
  | [table, name] => isIdentifier table && isIdentifier name
  | _ => false

def withoutRepeats : List Operator → List Operator
  | [] => []
  | op :: rest => op :: (withoutRepeats rest).filter (· ≠ op)

theorem nodup_withoutRepeats (ops : List Operator) : (withoutRepeats ops).Nodup := by
  induction ops with
  | nil => exact List.nodup_nil
  | cons op rest ih =>
    rw [withoutRepeats, List.nodup_cons]
    exact ⟨by simp [List.mem_filter], ih.filter _⟩

theorem mem_withoutRepeats {op : Operator} {ops : List Operator} :
    op ∈ withoutRepeats ops ↔ op ∈ ops := by
  induction ops with
  | nil => simp [withoutRepeats]
  | cons other rest ih =>
    by_cases same : op = other
    · simp [withoutRepeats, same]
    · simp [withoutRepeats, List.mem_filter, same, ih]

theorem withoutRepeats_of_nodup {ops : List Operator} (distinct : ops.Nodup) :
    withoutRepeats ops = ops := by
  induction ops with
  | nil => rfl
  | cons op rest ih =>
    rw [List.nodup_cons] at distinct
    rw [withoutRepeats, ih distinct.2, List.filter_eq_self.mpr]
    intro other inRest
    simp only [decide_eq_true_eq]
    rintro rfl
    exact distinct.1 inRest

structure FieldDefinition where
  column : String
  fieldType : FieldType
  operators : List Operator
  enumValues : List String
  distinct : operators.Nodup
  deriving DecidableEq

namespace FieldDefinition

def new (column : String) (fieldType : FieldType) : FieldDefinition :=
  ⟨column, fieldType, fieldType.defaultOperators, [], fieldType.nodup_defaultOperators⟩

def enumeration (column : String) (values : List String) : FieldDefinition :=
  { new column .enumeration with enumValues := values }

/-- Allows these operators and no others; repeated ones count once. -/
def withOperators (d : FieldDefinition) (ops : List Operator) : FieldDefinition :=
  { d with operators := withoutRepeats ops, distinct := nodup_withoutRepeats ops }

def allows (d : FieldDefinition) (op : Operator) : Bool :=
  d.operators.contains op

def isSound (d : FieldDefinition) : Bool :=
  isColumn d.column && !d.operators.isEmpty && d.operators.all d.fieldType.permits &&
    (d.enumValues.isEmpty != (d.fieldType == .enumeration))

def fault? (d : FieldDefinition) (name : String) : Option SchemaError :=
  if !isColumn d.column then some (.invalidColumn name d.column)
  else if d.operators.isEmpty then some (.noOperators name)
  else match d.operators.find? fun op => !d.fieldType.permits op with
    | some op => some (.operatorNotPermitted name op d.fieldType)
    | none =>
      if d.fieldType = .enumeration then
        if d.enumValues.isEmpty then some (.emptyEnum name) else none
      else if d.enumValues.isEmpty then none
      else some (.unexpectedEnumValues name)

theorem fault?_eq_none_iff (d : FieldDefinition) (name : String) :
    d.fault? name = none ↔ d.isSound = true := by
  by_cases column : isColumn d.column <;> by_cases without : d.operators = []
  · simp [fault?, isSound, column, without]
  · cases search : d.operators.find? fun op => !d.fieldType.permits op with
    | some op =>
      have found := List.find?_some search
      have inOperators := List.mem_of_find?_eq_some search
      simp only [fault?, isSound, column, without, search, List.isEmpty_iff]
      simp only [Bool.not_eq_true'] at found
      simp only [Bool.not_true, Bool.false_eq_true, if_false, reduceCtorEq, Bool.and_eq_true,
        List.all_eq_true, false_iff, not_and]
      intro permitted
      exact absurd (permitted.2 op inOperators) (by simp [found])
    | none =>
      have permitted : d.operators.all d.fieldType.permits = true := by
        simpa [List.all_eq_true] using search
      simp only [fault?, isSound, column, search, permitted]
      by_cases typed : d.fieldType = .enumeration <;> by_cases values : d.enumValues = [] <;>
        simp [without, typed, values, List.isEmpty_eq_false_iff.mpr, beq_eq_false_iff_ne.mpr]
  · simp [fault?, isSound, column]
  · simp [fault?, isSound, column]

def toJson (d : FieldDefinition) : Json :=
  .object <|
    [("column", .string d.column), ("type", .string d.fieldType.name),
      ("operators", .array (d.operators.map fun op => .string op.name))] ++
    if d.enumValues.isEmpty then [] else [("enumValues", .array (d.enumValues.map .string))]

end FieldDefinition
end Sieve
