import Sieve.Error
import Sieve.Filter
import Sieve.Schema.Basic
import Sieve.Settings.Basic

/-! Checking filters against a schema by their structure: the field is known, it allows the
operator, and there is a value of the form that the operator takes. -/
namespace Sieve

namespace Filter

def resolve (schema : Schema) (f : Filter) : Except FilterError (FieldDefinition × Operator) :=
  match schema.field? f.field with
  | none => .error (.unknownField f.field schema.resource)
  | some definition =>
    match f.resolvedOperator.filter definition.allows with
    | none => .error (.invalidOperator f.field f.operator)
    | some op =>
      if op.takesList && !(f.value.map RawValue.isList).getD false then
        .error (.invalidIn f.field op.name)
      else if op.takesValue && f.value.isNone then .error (.missingValue f.field op)
      else .ok (definition, op)

def validate (schema : Schema) (f : Filter) : Except FilterError Unit :=
  (f.resolve schema).map fun _ => ()

end Filter

def errorOf? {ε α : Type} : Except ε α → Option ε
  | .error e => some e
  | .ok _ => none

/-- Checks one filter after another and adds to the errors found so far. Failing fast ends with the
first error. -/
def Filter.errorsFrom (schema : Schema) (mode : ValidationMode) :
    List Filter → List FilterError → List FilterError
  | [], errors => errors
  | f :: rest, errors =>
    match f.validate schema with
    | .ok _ => errorsFrom schema mode rest errors
    | .error e =>
      match mode with
      | .failFast => errors ++ [e]
      | .exhaustive => errorsFrom schema mode rest (errors ++ [e])

def Tree.validate (schema : Schema) (mode : ValidationMode) (tree : Tree Filter) :
    Except (List FilterError) Unit :=
  let errors := Filter.errorsFrom schema mode tree.leaves []
  if errors.isEmpty then .ok () else .error errors

end Sieve
